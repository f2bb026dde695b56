import DustMonitoring.Dumopro.Supervisor

/-!
# Stations that are registered anew

A station name can come back under another `station_id`.  The reconciler
then sets a conflict, and starts no task for the name until the user has
resolved it, so that a task does not go on with the data of another
station.  The fan-out at boot looks at the conflicts only: it starts a name
that was registered anew while the poller was down.

`Ledger` is what a run has seen of the names: the id of the last task that
was started, and the ids for which the user has resolved a conflict.

* `Guarded` is the invariant: the data of a name are of its last task,
  unless the user resolved a conflict for it, and the removed marker names
  an id under which the name goes on.
* `startsOwn_of_checked`: in a run in which the fan-out starts no name
  that was registered anew, and in which the reconciler finds data when
  there are data of another id, no task is started on the data of another
  id for which the user has not resolved a conflict.
-/

namespace DustMonitoring.Dumopro

open DustMonitoring.Lib

/-! ## History -/

/-- What a run has seen of the station names. -/
structure Ledger where
  /-- The id of the last task that was started for the name. -/
  owner : String → Option String := fun _ => none
  /-- The ids for which the user has resolved a conflict of the name, and
  which no task of another id has followed. -/
  resolved : String → List String := fun _ => []

/-- The ids under which the name is registered. -/
def registered (db : List StationInfo) (name : String) : List String :=
  (db.filter fun s => s.stationName == name).map StationInfo.stationId

/-- The name whose conflict the event resolves, and the ids that it is
resolved for: the id that `carry_over` remembers, and those that the name
is registered under when its conflict is cleared. -/
def Event.resolves (w : World) : Event → Option (String × List String)
  | .serve i o =>
    match w.requests i with
    | .serving name (op :: _) =>
      if o.applied then
        match op with
        | .setRemoved newId => some (name, [newId])
        | .clearConflict => some (name, registered w.db name)
        | .delete _ | .clearRemoved => none
      else none
    | _ => none
  | _ => none

namespace Ledger

/-- A task is started. -/
def start (h : Ledger) (st : StationInfo) : Ledger where
  owner := Function.update h.owner st.stationName (some st.stationId)
  resolved := Function.update h.resolved st.stationName
    ((h.resolved st.stationName).filter fun id => id == st.stationId)

/-- The user resolves a conflict of the name for the ids. -/
def resolve (h : Ledger) (name : String) (ids : List String) : Ledger :=
  { h with
    resolved := Function.update h.resolved name (h.resolved name ++ ids) }

/-- The name goes on under the id: it is the id of its last task, or the
user has resolved a conflict for it. -/
def Settled (h : Ledger) (name id : String) : Prop :=
  h.owner name = some id ∨ id ∈ h.resolved name

end Ledger

/-- The ledger after the event. -/
def note (w : World) (e : Event) (h : Ledger) : Ledger :=
  match e.starts w, e.resolves w with
  | some st, _ => h.start st
  | none, some (name, ids) => h.resolve name ids
  | none, none => h

/-! ## The property and its condition -/

/-- The data of the name are of the id, or the user has resolved a conflict
of the name for it. -/
def OwnData (r : Registry) (h : Ledger) (st : StationInfo) : Prop :=
  st.stationId ∈ h.resolved st.stationName ∨
    ∀ e ∈ r.data, e.station = st.stationName → e.stationId = st.stationId

instance (r : Registry) (h : Ledger) (st : StationInfo) :
    Decidable (OwnData r h st) := by
  unfold OwnData
  infer_instance

/-- A task is started on its own data only. -/
def StartsOwn (t : World × Ledger) (e : Event) : Prop :=
  ∀ st ∈ e.starts t.1, OwnData t.1.redis t.2 st

instance (t : World × Ledger) (e : Event) : Decidable (StartsOwn t e) :=
  inferInstanceAs (Decidable (∀ st ∈ e.starts t.1, OwnData t.1.redis t.2 st))

/-- The fan-out starts the name once, under the id of its last task or one
for which the user resolved a conflict, unless there are no data. -/
def BootChecked (w : World) (h : Ledger) (st : StationInfo) : Prop :=
  w.poller.running.find? st.stationName = none ∧
    (h.Settled st.stationName st.stationId ∨
      ∀ e ∈ w.redis.data, e.station ≠ st.stationName)

/-- If the name has data of another id, `has_station_remnant_data` finds
data of the name. -/
def ProbeChecked (r : Registry) (st : StationInfo) : Prop :=
  (∃ e ∈ r.data, e.station = st.stationName ∧ e.stationId ≠ st.stationId) →
    r.hasStationRemnantData st.stationName = true

/-- The condition on the start of a task: the removed marker names no
other id, and what the fan-out and the probe for data leave unchecked. -/
def StartChecked (w : World) (h : Ledger) (st : StationInfo) : Prop :=
  (∀ id ∈ w.redis.getRemovedStationId st.stationName, id = st.stationId) ∧
    match w.poller.pc with
    | .bootConflict _ _ => BootChecked w h st
    | .remnant _ _ => ProbeChecked w.redis st
    | _ => True

/-- The condition on the start of a task as a test. -/
instance (w : World) (h : Ledger) (st : StationInfo) :
    Decidable (StartChecked w h st) := by
  unfold StartChecked BootChecked ProbeChecked Ledger.Settled
  cases w.poller.pc <;> infer_instance

def Checked (t : World × Ledger) (e : Event) : Prop :=
  ∀ st ∈ e.starts t.1, StartChecked t.1 t.2 st

instance (t : World × Ledger) (e : Event) : Decidable (Checked t e) :=
  inferInstanceAs (Decidable (∀ st ∈ e.starts t.1, StartChecked t.1 t.2 st))

/-! ## The invariant -/

/-- The tasks in hand are the last ones of their names, the data are of
the last tasks, and the removed markers name ids under which the names go
on. -/
structure Accounted (owned : List StationInfo) (r : Registry) (h : Ledger) :
    Prop where
  owned : ∀ t ∈ owned, h.owner t.stationName = some t.stationId
  data : ∀ e ∈ r.data, ∃ id, h.owner e.station = some id ∧
    (e.stationId = id ∨ id ∈ h.resolved e.station)
  removed : ∀ name, ∀ id ∈ r.getRemovedStationId name, h.Settled name id

structure Guarded (w : World) (h : Ledger) : Prop where
  orderly : w.poller.Orderly
  accounted : Accounted w.poller.owned w.redis h

variable {owned owned' : List StationInfo} {r r' : Registry} {h : Ledger}

theorem Accounted.mono (ha : Accounted owned r h)
    (howned : ∀ t ∈ owned', t ∈ owned) (hdata : ∀ e ∈ r'.data, e ∈ r.data)
    (hremoved : ∀ name, ∀ id ∈ r'.getRemovedStationId name, h.Settled name id) :
    Accounted owned' r' h :=
  ⟨fun t ht => ha.owned t (howned t ht), fun e he => ha.data e (hdata e he),
    hremoved⟩

/-- A resolution settles more ids, and moves nothing. -/
theorem Accounted.resolve (ha : Accounted owned r h) (name : String)
    (ids : List String) : Accounted owned r (h.resolve name ids) := by
  have hmono : ∀ n id, id ∈ h.resolved n →
      id ∈ (h.resolve name ids).resolved n := by
    intro n id hid
    by_cases hn : n = name
    · subst hn
      simp [Ledger.resolve, hid]
    · simpa [Ledger.resolve, Function.update_of_ne hn] using hid
  refine ⟨ha.owned, fun e he => ?_, fun n id hid => ?_⟩
  · obtain ⟨id, howner, hid⟩ := ha.data e he
    exact ⟨id, howner, hid.imp_right (hmono e.station id)⟩
  · exact (ha.removed n id hid).imp_right (hmono n id)

/-- A task is started on its own data, and over no other task of the name. -/
theorem Accounted.start (ha : Accounted owned r h) {st : StationInfo}
    (hfresh : ∀ t ∈ owned, t.stationName ≠ st.stationName)
    (hmarker : ∀ id ∈ r.getRemovedStationId st.stationName, id = st.stationId)
    (hdata : OwnData r h st) : Accounted (st :: owned) r (h.start st) := by
  have hother : ∀ n, n ≠ st.stationName →
      (h.start st).owner n = h.owner n ∧ (h.start st).resolved n = h.resolved n :=
    fun n hn => ⟨Function.update_of_ne hn _ _, Function.update_of_ne hn _ _⟩
  have hself : (h.start st).owner st.stationName = some st.stationId :=
    Function.update_self _ _ _
  refine ⟨fun t ht => ?_, fun e he => ?_, fun n id hid => ?_⟩
  · rcases List.mem_cons.mp ht with rfl | ht
    · exact hself
    · rw [(hother _ (hfresh t ht)).1]
      exact ha.owned t ht
  · by_cases hn : e.station = st.stationName
    · rw [hn]
      refine ⟨st.stationId, hself, ?_⟩
      rcases hdata with hres | hall
      · right
        simp [Ledger.start, hres]
      · exact Or.inl (hall e he hn)
    · obtain ⟨howner, hres⟩ := hother _ hn
      rw [howner, hres]
      exact ha.data e he
  · by_cases hn : n = st.stationName
    · subst hn
      rw [hmarker id hid]
      exact Or.inl hself
    · obtain ⟨howner, hres⟩ := hother _ hn
      rw [Ledger.Settled, howner, hres]
      exact ha.removed n id hid

/-- Under an id under which the name goes on, its data are its own. -/
theorem Accounted.ownData (ha : Accounted owned r h) {st : StationInfo}
    (hs : h.Settled st.stationName st.stationId) : OwnData r h st := by
  by_cases hres : st.stationId ∈ h.resolved st.stationName
  · exact Or.inl hres
  · refine Or.inr fun e he hname => ?_
    obtain ⟨id, howner, hid⟩ := ha.data e he
    rw [hname, hs.resolve_right hres] at howner
    obtain rfl := Option.some.inj howner
    rw [hname] at hid
    exact hid.resolve_right hres

/-! ## One step -/

/-- The operations of the poller write no data. -/
theorem data_effect (r : Registry) (pc : PollerPc) :
    (pc.effect r).data = r.data := by
  cases pc <;> rfl

/-- The poller remembers the task that it stops. -/
theorem removed_effect {pc : PollerPc} {name id : String}
    (h : id ∈ (pc.effect r).getRemovedStationId name) :
    id ∈ r.getRemovedStationId name ∨
      ∃ st, pc.stops = some st ∧ st.stationName = name ∧ st.stationId = id := by
  cases pc with
  | started st k =>
    simp only [PollerPc.effect,
      Registry.getRemovedStationId_clearRemovedStationId] at h
    split at h
    · contradiction
    · exact Or.inl h
  | remember st k =>
    simp only [PollerPc.effect,
      Registry.getRemovedStationId_setRemovedStationId] at h
    split at h
    · next hname =>
      obtain ⟨hid, -⟩ := Option.filter_eq_some_iff.mp h
      exact Or.inr ⟨st, rfl, hname.symm, Option.some.inj hid⟩
    · exact Or.inl h
  | _ => exact Or.inl h

theorem mem_owned_of_stops {p : Poller} {st : StationInfo}
    (h : p.pc.stops = some st) : st ∈ p.owned := by
  simp [Poller.owned, h]

/-- A move of the poller that starts no task, after its operation was
applied or not. -/
theorem Guarded.move {w : World} (hw : Guarded w h) (applied : Bool)
    {p : Poller} (hp : w.poller.Moves none p) :
    Guarded
      { w with
        redis := if applied then w.poller.pc.effect w.redis else w.redis
        poller := p } h := by
  have howned : ∀ t ∈ p.owned, t ∈ w.poller.owned := by
    intro t ht
    rcases hp.owned t ht with ht | hnone
    · exact ht
    · contradiction
  refine ⟨hp.orderly hw.orderly fun st hst => by contradiction, ?_⟩
  cases applied with
  | false => exact hw.accounted.mono howned (fun e he => he) hw.accounted.removed
  | true =>
    refine hw.accounted.mono howned (fun e he => ?_) fun name id hid => ?_
    · rw [if_pos rfl, data_effect] at he
      exact he
    · rw [if_pos rfl] at hid
      rcases removed_effect hid with hid | ⟨st, hstops, rfl, rfl⟩
      · exact hw.accounted.removed name id hid
      · exact Or.inl (hw.accounted.owned st (mem_owned_of_stops hstops))

/-- A start is on own data, and over no other task of the name. -/
theorem Guarded.start {w : World} (hw : Guarded w h) {st : StationInfo}
    (hst : Poller.starts w.redis w.poller.pc = some st)
    (hc : StartChecked w h st) :
    OwnData w.redis h st ∧
      ∀ t ∈ w.poller.running.rows, t.stationName ≠ st.stationName := by
  have horderly := hw.orderly.probes
  unfold StartChecked at hc
  cases hpc : w.poller.pc with
  | bootConflict s rest =>
    simp only [hpc, Poller.starts] at hst hc
    split at hst
    · contradiction
    · obtain rfl := Option.some.inj hst
      obtain ⟨-, hfree, hsettled⟩ := hc
      refine ⟨?_, Table.find?_eq_none_iff.mp hfree⟩
      rcases hsettled with hs | hnone
      · exact hw.accounted.ownData hs
      · exact Or.inr fun e he hname => absurd hname (hnone e he)
  | getRemoved s round =>
    simp only [hpc, Poller.starts] at hst
    split at hst
    · next hmarker =>
      obtain rfl := Option.some.inj hst
      rw [hpc] at horderly
      exact ⟨hw.accounted.ownData (hw.accounted.removed _ _ hmarker),
        horderly s rfl⟩
    · contradiction
  | remnant s round =>
    simp only [hpc, Poller.starts] at hst hc
    split at hst
    · contradiction
    · next hprobe =>
      obtain rfl := Option.some.inj hst
      rw [hpc] at horderly
      refine ⟨Or.inr fun e he hname => ?_, horderly s rfl⟩
      by_contra hne
      exact hprobe (hc.2 ⟨e, he, hname, hne⟩)
  | _ => rw [hpc] at hst; contradiction

/-- A start comes when no task is being stopped, and its operation writes
nothing. -/
theorem calm_of_starts {r : Registry} {pc : PollerPc} {st : StationInfo}
    (hst : Poller.starts r pc = some st) : pc.Calm ∧ pc.effect r = r := by
  cases pc <;> first | exact ⟨⟨rfl, rfl⟩, rfl⟩ | contradiction

theorem Guarded.reply_ok {w : World} (hw : Guarded w h)
    (hc : Checked (w, h) (.reply .ok)) (glob : String → String → Bool) :
    Guarded (step glob w (.reply .ok)) (note w (.reply .ok) h) := by
  have hmoves := Poller.moves_resume w.db w.redis w.poller
  cases hst : Poller.starts w.redis w.poller.pc with
  | none =>
    rw [hst] at hmoves
    have hnote : note w (.reply .ok) h = h := by
      simp [note, Event.starts, Event.resolves, hst]
    rw [hnote]
    exact hw.move true hmoves
  | some st =>
    rw [hst] at hmoves
    have hchecked : StartChecked w h st := hc st hst
    obtain ⟨hown, hfresh⟩ := hw.start hst hchecked
    obtain ⟨hcalm, heffect⟩ := calm_of_starts hst
    have hnote : note w (.reply .ok) h = h.start st := by
      simp [note, Event.starts, hst]
    have howned : ∀ t ∈ w.poller.owned, t.stationName ≠ st.stationName := by
      intro t ht
      simp only [Poller.owned, hcalm.1, Option.toList_none, List.append_nil,
        List.mem_append] at ht
      rcases ht with ht | ht
      · exact hfresh t (hw.orderly.running hcalm t ht)
      · exact hfresh t ht
    rw [hnote]
    refine ⟨hmoves.orderly hw.orderly fun s hs => ?_, ?_⟩
    · obtain rfl := Option.some.inj hs
      exact hfresh
    · show Accounted _ (w.poller.pc.effect w.redis) _
      rw [heffect]
      have hstart := hw.accounted.start howned hchecked.1 hown
      refine hstart.mono (fun t ht => ?_) (fun e he => he) hstart.removed
      rcases hmoves.owned t ht with ht | hts
      · exact List.mem_cons_of_mem st ht
      · obtain rfl := Option.some.inj hts
        exact List.mem_cons_self

/-- A task that has not ended writes under its own name and id. -/
theorem Accounted.write (ha : Accounted owned r h) {st : StationInfo}
    (hst : st ∈ owned) (op : TaskWrite) : Accounted owned (r.write st op) h := by
  refine ⟨ha.owned, fun e he => ?_, fun name id hid => ?_⟩
  · rcases Registry.mem_data_write he with he | ⟨hname, hid⟩
    · exact ha.data e he
    · rw [hname]
      exact ⟨st.stationId, ha.owned st hst, Or.inl hid⟩
  · rw [Registry.getRemovedStationId, Registry.removed_write] at hid
    exact ha.removed name id hid

/-- An operation of a request, with what it resolves. -/
theorem Accounted.serve (ha : Accounted owned r h) {name : String}
    {op : ResolveOp} {ids : List String}
    (hids : ∀ newId, op = .setRemoved newId → newId ∈ ids)
    (glob : String → String → Bool) :
    Accounted owned (op.effect glob name r) (h.resolve name ids) := by
  refine (ha.resolve name ids).mono (fun t ht => ht) (fun e he => ?_) ?_
  · cases op with
    | delete pattern => exact Registry.mem_data_deletePattern he
    | _ => exact he
  · intro n id hid
    have hbefore := (ha.resolve name ids).removed n id
    cases op with
    | setRemoved newId =>
      simp only [ResolveOp.effect,
        Registry.getRemovedStationId_setRemovedStationId] at hid
      split at hid
      · next hn =>
        obtain ⟨hsome, -⟩ := Option.filter_eq_some_iff.mp hid
        obtain rfl := Option.some.inj hsome
        subst hn
        right
        simp [Ledger.resolve, hids newId rfl]
      · exact hbefore hid
    | clearRemoved =>
      simp only [ResolveOp.effect,
        Registry.getRemovedStationId_clearRemovedStationId] at hid
      split at hid
      · contradiction
      · exact hbefore hid
    | _ => exact hbefore hid

/-- An operation that resolves nothing. -/
theorem Accounted.serve_of_resolves_none (ha : Accounted owned r h)
    {name : String} {op : ResolveOp} (hop : ∀ newId, op ≠ .setRemoved newId)
    (glob : String → String → Bool) :
    Accounted owned (op.effect glob name r) h := by
  have hserve : Accounted owned (op.effect glob name r) (h.resolve name []) :=
    ha.serve (fun newId hn => absurd hn (hop newId)) glob
  have hsame : h.resolve name [] = h := by
    simp [Ledger.resolve]
  rw [hsame] at hserve
  exact hserve

theorem Guarded.serve {w : World} (hw : Guarded w h) (i : Nat) (o : Outcome)
    (glob : String → String → Bool) :
    Guarded (step glob w (.serve i o)) (note w (.serve i o) h) := by
  refine ⟨hw.orderly, ?_⟩
  show Accounted w.poller.owned (serveRequest glob w.redis o (w.requests i)).2
    (match none, Event.resolves w (.serve i o) with
      | some st, _ => h.start st
      | none, some (name, ids) => h.resolve name ids
      | none, none => h)
  cases hreq : w.requests i with
  | idle =>
    simp only [Event.resolves, hreq]
    exact hw.accounted
  | lookup name action =>
    simp only [Event.resolves, hreq, serveRequest]
    split <;> exact hw.accounted
  | serving name ops =>
    cases ops with
    | nil =>
      simp only [Event.resolves, hreq]
      exact hw.accounted
    | cons op ops =>
      simp only [Event.resolves, hreq, serveRequest, Outcome.settle]
      cases o.applied with
      | false => exact hw.accounted
      | true =>
        simp only [if_true]
        cases op with
        | setRemoved newId =>
          refine hw.accounted.serve (fun id hid => ?_) glob
          obtain rfl := ResolveOp.setRemoved.inj hid
          exact List.mem_singleton_self newId
        | clearConflict =>
          refine hw.accounted.serve (fun id hid => ?_) glob
          contradiction
        | delete pattern =>
          exact hw.accounted.serve_of_resolves_none (fun _ => by simp) glob
        | clearRemoved =>
          exact hw.accounted.serve_of_resolves_none (fun _ => by simp) glob

/-- Every step that meets the condition keeps `Guarded`. -/
theorem Guarded.step {w : World} (hw : Guarded w h) {e : Event}
    (hc : Checked (w, h) e) (glob : String → String → Bool) :
    Guarded (Dumopro.step glob w e) (note w e h) := by
  cases e with
  | setDb stations => exact ⟨hw.orderly, hw.accounted⟩
  | boot =>
    simp only [Dumopro.step]
    split
    · refine ⟨⟨fun t ht => absurd ht List.not_mem_nil, fun _ h => by contradiction⟩, ?_⟩
      exact hw.accounted.mono (fun t ht => absurd ht List.not_mem_nil)
        (fun e he => he) hw.accounted.removed
    · exact hw
  | interval =>
    simp only [Dumopro.step]
    split
    · next hpc =>
      have hcalm : w.poller.pc.Calm := by
        rw [hpc]
        exact ⟨rfl, rfl⟩
      exact hw.move false
        (Poller.moves_pc hcalm rfl fun _ st hst => by contradiction)
    · exact hw
  | reply o =>
    cases o with
    | ok => exact hw.reply_ok hc glob
    | failed exc => exact hw.move false (Poller.moves_raised w.poller)
    | lost exc => exact hw.move true (Poller.moves_raised w.poller)
  | interrupt => exact hw.move false (Poller.moves_interrupted w.poller)
  | crash applied => exact hw.move applied Poller.moves_empty
  | write st op =>
    show Guarded (if _ then _ else w) h
    split
    · next hst =>
      refine ⟨hw.orderly, hw.accounted.write ?_ op⟩
      simp [Poller.owned, hst]
    · exact hw
  | taskEnds st =>
    refine ⟨⟨fun t ht => ?_, hw.orderly.probes⟩, ?_⟩
    · exact hw.orderly.held t (List.mem_filter.mp ht).1
    · refine hw.accounted.mono (fun t ht => ?_) (fun e he => he) hw.accounted.removed
      simp only [Poller.owned, List.mem_append] at ht ⊢
      exact ht.imp_left (Or.imp_left fun h => (List.mem_filter.mp h).1)
  | request i name action =>
    simp only [Dumopro.step]
    split
    · split
      · exact ⟨hw.orderly, hw.accounted⟩
      · exact hw
    · exact hw
  | serve i o => exact hw.serve i o glob

/-! ## Over a run -/

theorem guarded_init : Guarded {} {} where
  orderly := Poller.orderly_empty
  accounted :=
    ⟨fun t ht => absurd ht List.not_mem_nil,
      fun e he => absurd he List.not_mem_nil, fun name id hid => by contradiction⟩

/-- What the condition leaves to the code: at each start that meets it,
the data are own data. -/
theorem Guarded.startsOwn {w : World} (hw : Guarded w h) {e : Event}
    (hc : Checked (w, h) e) : StartsOwn (w, h) e := by
  intro st hst
  cases e with
  | reply o =>
    cases o with
    | ok => exact (hw.start hst (hc st hst)).1
    | _ => contradiction
  | _ => contradiction

/-- In every run in which the fan-out and the probe for data meet the
condition, every task is started on its own data, unless the user has
resolved a conflict of its name for its id. -/
theorem startsOwn_of_checked (glob : String → String → Bool) (es : List Event)
    (hc : AllSteps (withHistory (step glob) note) Checked ({}, {}) es) :
    AllSteps (withHistory (step glob) note) StartsOwn ({}, {}) es :=
  hc.imp (fun t : World × Ledger => Guarded t.1 t.2) (fun _ _ hw hchecked => hw.step hchecked glob)
    (fun _ _ hw hchecked => hw.startsOwn hchecked) guarded_init

/-! ## A station that comes back while the poller is down -/

def camera (stationId : String) : StationInfo where
  stationId := stationId
  stationName := "camera"

/-- The poller boots on one station, whose task moves its cursor. -/
def bootAndWrite (stationId : String) : List Event :=
  [.setDb [camera stationId], .boot] ++ List.replicate 4 (.reply .ok) ++
    [.write (camera stationId) .setCursor]

/-- The station is registered anew while the poller runs.  The reconciler
stops its task and sets a conflict, the user carries the data over, and the
next reconcile starts the new task. -/
def carriedOver : List Event :=
  bootAndWrite "A" ++ [.setDb [camera "B"], .reply .ok, .interval] ++
    List.replicate 7 (.reply .ok) ++
    [.request 0 "camera" .carryOver, .serve 0 .ok, .serve 0 .ok, .serve 0 .ok,
      .interval] ++ List.replicate 5 (.reply .ok)

/-- The matching of patterns without wildcards; a carry-over uses none. -/
def literal (pattern key : String) : Bool := pattern == key

example : (run (step literal) {} carriedOver).poller.tasks = [camera "B"] := by
  decide +kernel

theorem startsOwn_carriedOver :
    AllSteps (withHistory (step literal) note) StartsOwn ({}, {}) carriedOver :=
  startsOwn_of_checked literal carriedOver (by decide +kernel)

/-- The poller is killed, the station is registered anew, and the fan-out
of the next boot starts the new task on the data of the old one. -/
theorem not_startsOwn_bootAnew :
    ¬ AllSteps (withHistory (step literal) note) StartsOwn ({}, {})
      (bootAndWrite "A" ++ [.crash false] ++ bootAndWrite "B") := by
  decide +kernel

end DustMonitoring.Dumopro
