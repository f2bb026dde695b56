import Mathlib.Data.List.Dedup
import DustMonitoring.Dumopro.Supervisor

/-!
# A round of the reconciler

`_reconcile_once` goes through the names of the stations, one after the
other, with awaits in between.  A name that it has dealt with is handled: it
has a pending conflict, or a task that has not ended and is in the dict.

* `tends_resume`, `tends_raised`: a move of the poller keeps what the round
  knows of the names it has dealt with, and at the end of the round all
  stations are handled.
* `tidy_resume`, `tidy_of_moves`: a task that has not ended is there once,
  and is in the dict or being stopped.
-/

namespace DustMonitoring.Dumopro

open DustMonitoring.Lib

deriving instance DecidableEq for Round, Resume, PollerPc

/-- The round that the call of `_reconcile_once` is in. -/
def Resume.round? : Resume → Option Round
  | .round r | .flag _ _ r => some r
  | .boot _ | .shutdown _ => none

def PollerPc.round? : PollerPc → Option Round
  | .hasConflict _ r | .getRemoved _ r | .remnant _ r | .setConflict _ _ r => some r
  | .started _ k | .remember _ k | .stopping _ k => k.round?
  | _ => none

/-- The names that the round has still to deal with. -/
def Resume.ahead : Resume → List String
  | .round r => r.names
  | .flag st _ r => st.stationName :: r.names
  | .boot _ | .shutdown _ => []

def PollerPc.ahead : PollerPc → List String
  | .hasConflict st r | .getRemoved st r | .remnant st r | .setConflict st _ r =>
    st.stationName :: r.names
  | .started _ k | .remember _ k | .stopping _ k => k.ahead
  | _ => []

/-- The process has the list of the stations and goes through it. -/
def PollerPc.reconciling : PollerPc → Bool
  | .sync _ _ => true
  | pc => pc.round?.isSome

namespace Supervision

/-! ## Going through the names -/

/-- The name has a task that has not ended and is in the dict, or a conflict
is pending. -/
def Handled (r : Registry) (p : Poller) (name : String) : Prop :=
  r.hasPendingConflict name = true ∨
    ∃ t ∈ p.tasks, t ∈ p.running.rows ∧ t.stationName = name

/-- What the round knows of the stations: those that it has dealt with are
handled. -/
structure Covered (r : Registry) (p : Poller) : Prop where
  round : ∀ round ∈ p.pc.round?, r.stations = round.curr ∧
    ∀ st ∈ round.curr, st.stationName ∈ p.pc.ahead ∨ Handled r p st.stationName
  stops : ∀ old ∈ p.pc.stops, ∀ t ∈ p.running.rows, t.stationName ≠ old.stationName

/-- At the end of the round all stations are handled. -/
def AllHandled (r : Registry) (p : Poller) : Prop :=
  p.pc = .idle → ∀ st ∈ r.stations, Handled r p st.stationName

variable {r r' : Registry} {p p' : Poller}

theorem Handled.mono {name : String} (h : Handled r p name)
    (hconflict : r.hasPendingConflict name = true → r'.hasPendingConflict name = true)
    (htasks : ∀ t ∈ p.tasks, t ∈ p.running.rows → t.stationName = name →
      t ∈ p'.tasks ∧ t ∈ p'.running.rows) : Handled r' p' name := by
  rcases h with h | ⟨t, ht, hrunning, hname⟩
  · exact Or.inl (hconflict h)
  · obtain ⟨ht', hrunning'⟩ := htasks t ht hrunning hname
    exact Or.inr ⟨t, ht', hrunning', hname⟩

theorem stationName_of_byName {stations : List StationInfo} {name : String}
    {st : StationInfo} (h : byName stations name = some st) : st.stationName = name := by
  simpa using List.find?_some h

theorem not_mem_of_byName_none {stations : List StationInfo} {name : String}
    (h : byName stations name = none) : ∀ st ∈ stations, st.stationName ≠ name := by
  intro st hst
  have hnone := List.find?_eq_none.mp h st (List.mem_reverse.mpr hst)
  simpa using hnone

/-- A task that is stopped leaves the others where they are. -/
theorem covered_stop {old : StationInfo} {k : Resume} {round : Round}
    (hk : k.round? = some round) (hstations : r.stations = round.curr)
    (hround : ∀ st ∈ round.curr, st.stationName ∈ k.ahead ∨
      (Handled r p st.stationName ∧
        (st.stationName = old.stationName → r.hasPendingConflict st.stationName = true))) :
    Covered r (p.stop old k) where
  round := by
    intro round' hround'
    obtain rfl : round = round' := Option.some.inj (hk.symm.trans hround')
    refine ⟨hstations, fun st hst => (hround st hst).imp id fun h => ?_⟩
    by_cases hname : st.stationName = old.stationName
    · exact Or.inl (h.2 hname)
    · refine h.1.mono id fun t ht hrunning heq => ⟨ht, ?_⟩
      exact Table.mem_deleteWhere.mpr ⟨hrunning, decide_eq_false (heq ▸ hname)⟩
  stops := by
    intro old' hold' t ht
    obtain rfl : old = old' := Option.some.inj hold'
    exact of_decide_eq_false (Table.mem_deleteWhere.mp ht).2

/-- The loop over the names, up to its next await. -/
theorem covered_nextName {curr prev : List StationInfo} (hstations : r.stations = curr) :
    ∀ names : List String,
      (∀ st ∈ curr, st.stationName ∈ names ∨ Handled r p st.stationName) →
      Covered r (p.nextName curr prev names) ∧ AllHandled r (p.nextName curr prev names) := by
  intro names
  induction names with
  | nil =>
    intro hnames
    refine ⟨⟨fun _ h => by contradiction, fun _ h => by contradiction⟩, fun _ st hst => ?_⟩
    exact ((hnames st (hstations ▸ hst)).resolve_left List.not_mem_nil).mono id
      fun t ht hrunning _ => ⟨ht, hrunning⟩
  | cons name names ih =>
    intro hnames
    rw [Poller.nextName]
    split
    · next st hst =>
      refine ⟨⟨fun round hround => ?_, fun _ h => by contradiction⟩, fun h => by contradiction⟩
      obtain rfl := Option.some.inj hround
      refine ⟨hstations, fun x hx => (hnames x hx).imp (fun hmem => ?_) fun h => ?_⟩
      · have hname := stationName_of_byName hst
        simpa [PollerPc.ahead, hname] using hmem
      · exact h.mono id fun t ht hrunning _ => ⟨ht, hrunning⟩
    · next hnone =>
      have hothers : ∀ st ∈ curr, st.stationName ∈ names ∨ Handled r p st.stationName := by
        intro st hst
        refine (hnames st hst).imp (fun hmem => ?_) id
        exact (List.mem_cons.mp hmem).resolve_left (not_mem_of_byName_none hnone st hst)
      split
      · next old _ hold =>
        obtain ⟨-, hname⟩ := Table.find?_eq_some_iff.mp hold
        refine ⟨covered_stop rfl hstations fun st hst => ?_, fun h => by contradiction⟩
        refine (hothers st hst).imp id fun h => ⟨h, fun heq => ?_⟩
        exact absurd (heq.trans hname) (not_mem_of_byName_none hnone st hst)
      · exact ih hothers

/-- The names of the list are gone through. -/
theorem mem_roundNames {curr prev running : List StationInfo} {st : StationInfo}
    (h : st ∈ curr) : st.stationName ∈ roundNames curr prev running := by
  refine mem_orderBy.mpr (List.mem_dedup.mpr ?_)
  exact List.mem_map_of_mem (List.mem_append_left _ (List.mem_append_right _ h))

theorem covered_of_round?_none (hround : p.pc.round? = none) (hstops : p.pc.stops = none) :
    Covered r p where
  round := fun _ h => by
    rw [hround] at h
    contradiction
  stops := fun _ h => by
    rw [hstops] at h
    contradiction

/-- What the operation of a round does to Redis leaves the list of the
stations and the pending conflicts. -/
structure Keeps (r r' : Registry) : Prop where
  stations : r'.stations = r.stations
  conflict : ∀ name, r.hasPendingConflict name = true → r'.hasPendingConflict name = true

theorem Handled.keeps {name : String} (h : Handled r p name) (hr : Keeps r r') :
    Handled r' p name :=
  h.mono (hr.conflict name) fun _ ht hrunning _ => ⟨ht, hrunning⟩

theorem Covered.keeps (h : Covered r p) (hr : Keeps r r') : Covered r' p where
  round := fun round hround => by
    obtain ⟨hstations, hhandled⟩ := h.round round hround
    exact ⟨hr.stations.trans hstations, fun st hst => (hhandled st hst).imp id fun h => h.keeps hr⟩
  stops := h.stops

theorem hasPendingConflict_self (r : Registry) (name oldId newId : String) :
    (r.setPendingConflict name oldId newId).hasPendingConflict name = true := by
  simp [Registry.hasPendingConflict, Registry.setPendingConflict]

theorem keeps_setPendingConflict (r : Registry) (name oldId newId : String) :
    Keeps r (r.setPendingConflict name oldId newId) where
  stations := rfl
  conflict := by
    intro n hn
    by_cases h : n = name
    · rw [h]
      exact hasPendingConflict_self r name oldId newId
    · simp only [Registry.hasPendingConflict, Registry.setPendingConflict,
        Function.update_of_ne h] at hn ⊢
      exact hn

/-- A move of the poller from `p` to `p'` keeps what the round knows, and at
the end of the round all stations are handled. -/
structure Tends (p : Poller) (r' : Registry) (p' : Poller) : Prop where
  covered : Covered r' p'
  handled : p.pc.reconciling = true → AllHandled r' p'

theorem tends_of_ne_idle (h : Covered r p') (hpc : p'.pc ≠ .idle) : Tends p r p' :=
  ⟨h, fun _ hidle => absurd hidle hpc⟩

theorem tends_of_round?_none (hround : p'.pc.round? = none) (hstops : p'.pc.stops = none)
    (hpc : p'.pc ≠ .idle) : Tends p r p' :=
  tends_of_ne_idle (covered_of_round?_none hround hstops) hpc

theorem tends_of_pc_eq (h : Covered r p') (hpc : p'.pc = p.pc) : Tends p r p' where
  covered := h
  handled := fun hrec hidle => by
    rw [← hpc, hidle] at hrec
    contradiction

theorem covered_nextShutdown (r : Registry) (p : Poller) (names : List String) :
    Covered r (p.nextShutdown names) ∧ (p.nextShutdown names).pc ≠ .idle := by
  induction names with
  | nil => exact ⟨covered_of_round?_none rfl rfl, fun h => by contradiction⟩
  | cons name names ih =>
    rw [Poller.nextShutdown]
    split
    · next st hst =>
      refine ⟨⟨fun _ h => by contradiction, fun old hold t ht => ?_⟩, fun h => by contradiction⟩
      obtain rfl := Option.some.inj hold
      exact of_decide_eq_false (Table.mem_deleteWhere.mp ht).2
    · exact ih

/-- The loop at hand goes on. -/
theorem tends_goOn {q : Poller} {k : Resume}
    (hk : ∀ round ∈ k.round?, r.stations = round.curr ∧
      ∀ st ∈ round.curr, st.stationName ∈ k.ahead ∨ Handled r q st.stationName)
    (hrec : p.pc.reconciling = true → k.round?.isSome = true) :
    Tends p r (q.goOn k) := by
  cases k with
  | boot rest =>
    refine ⟨?_, fun h => absurd (hrec h) Bool.false_ne_true⟩
    cases rest <;> exact covered_of_round?_none rfl rfl
  | round round =>
    obtain ⟨hstations, hnames⟩ := hk round rfl
    obtain ⟨hcovered, hhandled⟩ := covered_nextName hstations round.names hnames
    exact ⟨hcovered, fun _ => hhandled⟩
  | flag st oldId round =>
    refine tends_of_ne_idle ⟨fun round' hround' => ?_, fun _ h => by contradiction⟩ nofun
    obtain rfl := Option.some.inj hround'
    exact hk round rfl
  | shutdown names =>
    obtain ⟨hcovered, hne⟩ := covered_nextShutdown r q names
    exact tends_of_ne_idle hcovered hne

theorem tends_shutdown : Tends p r p.shutdown :=
  tends_of_ne_idle (covered_nextShutdown r p _).1 (covered_nextShutdown r p _).2

/-- The process goes on to look something up for the station at hand. -/
theorem tends_pc {pc : PollerPc} {round : Round}
    (hstations : r.stations = round.curr)
    (hround : ∀ st ∈ round.curr, st.stationName ∈ pc.ahead ∨ Handled r p st.stationName)
    (hpc : pc.round? = some round) (hstops : pc.stops = none) (hne : pc ≠ .idle) :
    Tends p r { p with pc := pc } := by
  refine tends_of_ne_idle ⟨fun round' hround' => ?_, fun _ h => ?_⟩ hne
  · obtain rfl : round = round' := Option.some.inj (hpc.symm.trans hround')
    refine ⟨hstations, fun st hst => (hround st hst).imp id fun h => ?_⟩
    exact h.mono id fun t ht hrunning _ => ⟨ht, hrunning⟩
  · rw [show pc.stops = _ from h] at hstops
    contradiction

/-- A task is started for the station at hand. -/
theorem tends_start {st : StationInfo} {round : Round}
    (hstations : r.stations = round.curr)
    (hround : ∀ x ∈ round.curr,
      x.stationName ∈ st.stationName :: round.names ∨ Handled r p x.stationName) :
    Tends p r (p.start st (.round round)) := by
  refine tends_of_ne_idle ⟨fun round' hround' => ?_, fun _ h => by contradiction⟩ nofun
  obtain rfl := Option.some.inj hround'
  have hst : Handled r (p.start st (.round round)) st.stationName :=
    Or.inr ⟨st, List.mem_cons_self, Table.mem_upsert.mpr (Or.inl rfl), rfl⟩
  refine ⟨hstations, fun x hx => ?_⟩
  by_cases hname : x.stationName = st.stationName
  · exact Or.inr (hname ▸ hst)
  · refine (hround x hx).imp (fun hmem => ?_) fun h => ?_
    · exact (List.mem_cons.mp hmem).resolve_left hname
    · refine h.mono id fun t ht hrunning heq => ⟨List.mem_cons_of_mem st ht, ?_⟩
      exact Table.mem_upsert.mpr (Or.inr ⟨hrunning, heq ▸ hname⟩)

/-- The task that was being stopped has ended. -/
theorem tends_stopped {st : StationInfo} {k : Resume} (hpc : p.pc = .stopping st k)
    (h : Covered r p) :
    Tends p r ({ p with tasks := p.tasks.filter fun t => t != st }.goOn k) := by
  obtain ⟨hround, hstops⟩ := h
  rw [hpc] at hround hstops
  refine tends_goOn (fun round hk => ?_) fun h => ?_
  · obtain ⟨hstations, hhandled⟩ := hround round hk
    refine ⟨hstations, fun x hx => (hhandled x hx).imp id fun h => ?_⟩
    refine h.mono id fun t ht hrunning _ => ⟨List.mem_filter.mpr ⟨ht, ?_⟩, hrunning⟩
    -- the dict does not have the stopped task any more
    have hne : t ≠ st := fun heq => hstops st rfl t hrunning (heq ▸ rfl)
    simpa using hne
  · rw [hpc] at h
    exact h

/-- The station at hand is handled, so the round goes on with the names that
are left. -/
theorem tends_next {round : Round} {name : String} (hstations : r.stations = round.curr)
    (hname : Handled r p name)
    (hround : ∀ x ∈ round.curr,
      x.stationName ∈ name :: round.names ∨ Handled r p x.stationName) :
    Tends p' r (p.goOn (.round round)) := by
  refine tends_goOn (fun round' hk => ?_) fun _ => rfl
  obtain rfl := Option.some.inj hk
  refine ⟨hstations, fun x hx => ?_⟩
  rcases hround x hx with hmem | hx
  · rcases List.mem_cons.mp hmem with heq | hmem
    · exact Or.inr (heq ▸ hname)
    · exact Or.inl hmem
  · exact Or.inr hx

/-- The conflict flag of the station at hand was read. -/
theorem tends_hasConflict {st : StationInfo} {round : Round} (db : List StationInfo)
    (hpc : p.pc = .hasConflict st round) (hstations : r.stations = round.curr)
    (hround : ∀ x ∈ round.curr,
      x.stationName ∈ st.stationName :: round.names ∨ Handled r p x.stationName)
    (hfinds : r.hasPendingConflict st.stationName = false →
      ∀ old ∈ p.running.find? st.stationName,
        old.stationId = st.stationId → old ∈ p.tasks) :
    Tends p r (p.resume db r) := by
  unfold Poller.resume
  rw [hpc]
  dsimp only
  split
  · split
    · next hconflict => exact tends_next hstations (Or.inl hconflict) hround
    · exact tends_pc hstations hround rfl rfl nofun
  · next old hold =>
    obtain ⟨hrunning, hname⟩ := Table.find?_eq_some_iff.mp hold
    split
    · next hconflict =>
      refine tends_of_ne_idle (covered_stop rfl hstations fun x hx => ?_) nofun
      by_cases heq : x.stationName = st.stationName
      · exact Or.inr ⟨Or.inl (heq ▸ hconflict), fun _ => heq ▸ hconflict⟩
      · refine (hround x hx).imp (fun hmem => ?_) fun hx => ⟨hx, fun h => ?_⟩
        · exact (List.mem_cons.mp hmem).resolve_left heq
        · exact absurd (h.trans hname) heq
    · next hfree =>
      split
      · next hid =>
        have hmem := hfinds (Bool.eq_false_iff.mpr hfree) old hold hid
        exact tends_next hstations (Or.inr ⟨old, hmem, hrunning, hname⟩) hround
      · refine tends_of_ne_idle (covered_stop rfl hstations fun x hx => ?_) nofun
        by_cases heq : x.stationName = st.stationName
        · exact Or.inl (heq ▸ List.mem_cons_self)
        · exact (hround x hx).imp id fun hx => ⟨hx, fun h => absurd (h.trans hname) heq⟩

/-- The answer to the awaited operation, while a round goes on. -/
theorem tends_resume (db : List StationInfo) (h : Covered r p)
    (hfinds : ∀ st round, p.pc = .hasConflict st round →
      r.hasPendingConflict st.stationName = false →
        ∀ old ∈ p.running.find? st.stationName,
          old.stationId = st.stationId → old ∈ p.tasks) :
    Tends p (p.pc.effect r) (p.resume db r) := by
  obtain ⟨hround, hstops⟩ := h
  unfold Poller.resume
  cases hpc : p.pc with
  | down => exact tends_of_pc_eq ⟨hround, hstops⟩ rfl
  | idle => exact tends_of_pc_eq ⟨hround, hstops⟩ rfl
  | bootFetch => exact tends_of_round?_none rfl rfl (fun h => by contradiction)
  | bootSync stations =>
    refine tends_goOn (fun _ h => by contradiction) fun h => ?_
    rw [hpc] at h
    contradiction
  | bootConflict st rest =>
    dsimp only [PollerPc.effect]
    split
    · refine tends_goOn (fun _ h => by contradiction) fun h => ?_
      rw [hpc] at h
      contradiction
    · exact tends_of_round?_none rfl rfl (fun h => by contradiction)
  | started st k =>
    rw [hpc] at hround
    refine tends_goOn (fun round hk => ?_) fun h => ?_
    · exact hround round hk
    · rw [hpc] at h
      exact h
  | fetch => exact tends_of_round?_none rfl rfl (fun h => by contradiction)
  | getStations curr => exact tends_of_round?_none rfl rfl (fun h => by contradiction)
  | sync curr prev =>
    refine tends_goOn (fun round hk => ?_) fun _ => rfl
    obtain rfl := Option.some.inj hk
    exact ⟨rfl, fun st hst => Or.inl (mem_roundNames hst)⟩
  | hasConflict st round =>
    rw [hpc] at hround
    obtain ⟨hstations, hhandled⟩ := hround round rfl
    have hnext := tends_hasConflict db hpc hstations hhandled (hfinds st round hpc)
    rw [Poller.resume, hpc] at hnext
    exact hnext
  | getRemoved st round =>
    rw [hpc] at hround
    obtain ⟨hstations, hhandled⟩ := hround round rfl
    dsimp only [PollerPc.effect]
    split
    · split
      · exact tends_start hstations hhandled
      · exact tends_pc hstations hhandled rfl rfl (fun h => by contradiction)
    · exact tends_pc hstations hhandled rfl rfl (fun h => by contradiction)
  | remnant st round =>
    rw [hpc] at hround
    obtain ⟨hstations, hhandled⟩ := hround round rfl
    dsimp only [PollerPc.effect]
    split
    · exact tends_pc hstations hhandled rfl rfl (fun h => by contradiction)
    · exact tends_start hstations hhandled
  | setConflict st oldId round =>
    rw [hpc] at hround
    obtain ⟨hstations, hhandled⟩ := hround round rfl
    refine tends_next hstations (Or.inl ?_) fun x hx => (hhandled x hx).imp id fun h => ?_
    · exact hasPendingConflict_self r st.stationName oldId st.stationId
    · exact h.keeps (keeps_setPendingConflict r st.stationName oldId st.stationId)
  | remember st k =>
    rw [hpc] at hround hstops
    exact tends_of_ne_idle ⟨hround, hstops⟩ (fun h => by contradiction)
  | stopping st k =>
    have hstopped := tends_stopped hpc ⟨hround, hstops⟩
    rw [hpc] at hstopped
    exact hstopped

/-- The awaited operation raises. -/
theorem tends_raised (h : Covered r p) (hr : Keeps r r' ∨ r' = p.pc.effect r) :
    Tends p r' p.raised := by
  have hkeeps : ∀ {st k}, p.pc = .started st k ∨ p.pc = .remember st k ∨
      p.pc = .stopping st k → Keeps r r' := by
    intro st k hpc
    refine hr.elim id fun hr => ?_
    rw [hr]
    rcases hpc with hpc | hpc | hpc <;> rw [hpc] <;> exact ⟨rfl, fun _ h => h⟩
  unfold Poller.raised
  cases hpc : p.pc with
  | down =>
    refine tends_of_pc_eq (covered_of_round?_none ?_ ?_) rfl <;> rw [hpc] <;> rfl
  | idle =>
    refine tends_of_pc_eq (covered_of_round?_none ?_ ?_) rfl <;> rw [hpc] <;> rfl
  | bootFetch => exact tends_of_round?_none rfl rfl nofun
  | bootSync stations => exact tends_of_round?_none rfl rfl nofun
  | bootConflict st rest => exact tends_of_round?_none rfl rfl nofun
  | fetch =>
    refine ⟨covered_of_round?_none rfl rfl, fun h => ?_⟩
    rw [hpc] at h
    contradiction
  | started st k =>
    obtain ⟨hround, -⟩ := h.keeps (hkeeps (Or.inl hpc))
    rw [hpc] at hround
    refine tends_goOn (fun round hk => ?_) fun h => ?_
    · exact hround round hk
    · rw [hpc] at h
      exact h
  | remember st k =>
    obtain ⟨hround, hstops⟩ := h.keeps (hkeeps (Or.inr (Or.inl hpc)))
    rw [hpc] at hround hstops
    exact tends_of_ne_idle ⟨hround, hstops⟩ nofun
  | stopping st k =>
    have hstopped := tends_stopped hpc (h.keeps (hkeeps (Or.inr (Or.inr hpc))))
    rw [hpc] at hstopped
    exact hstopped
  | _ => exact tends_shutdown

/-! ## The tasks -/

theorem sublist_nextName (p : Poller) (curr prev : List StationInfo) (names : List String) :
    (p.nextName curr prev names).tasks.Sublist p.tasks := by
  induction names with
  | nil => exact List.Sublist.refl _
  | cons name names ih =>
    rw [Poller.nextName]
    split
    · exact List.Sublist.refl _
    · split
      · exact List.Sublist.refl _
      · exact ih

theorem sublist_nextShutdown (p : Poller) (names : List String) :
    (p.nextShutdown names).tasks.Sublist p.tasks := by
  induction names with
  | nil => exact List.nil_sublist _
  | cons name names ih =>
    rw [Poller.nextShutdown]
    split
    · exact List.Sublist.refl _
    · exact ih

theorem sublist_goOn (p : Poller) (k : Resume) : (p.goOn k).tasks.Sublist p.tasks := by
  cases k with
  | boot rest => cases rest <;> exact List.Sublist.refl _
  | round round => exact sublist_nextName p round.curr round.prev round.names
  | flag st oldId round => exact List.Sublist.refl _
  | shutdown names => exact sublist_nextShutdown p names

/-- An answer starts the one task at most. -/
theorem sublist_resume (db : List StationInfo) (r : Registry) (p : Poller) :
    (p.resume db r).tasks.Sublist ((Poller.starts r p.pc).toList ++ p.tasks) := by
  have hgo : ∀ (st? : Option StationInfo) k,
      (p.goOn k).tasks.Sublist (st?.toList ++ p.tasks) := fun st? k =>
    (sublist_goOn p k).trans (List.sublist_append_right _ _)
  have hself : ∀ st? : Option StationInfo, p.tasks.Sublist (st?.toList ++ p.tasks) :=
    fun st? => List.sublist_append_right _ _
  unfold Poller.resume
  cases hpc : p.pc with
  | down => exact hself none
  | idle => exact hself none
  | bootFetch => exact hself none
  | bootSync stations => exact hgo none _
  | bootConflict st rest =>
    dsimp only [Poller.starts]
    split
    · exact hgo none _
    · exact List.Sublist.refl _
  | started st k => exact hgo none k
  | fetch => exact hself none
  | getStations curr => exact hself none
  | sync curr prev => exact hgo none _
  | hasConflict st round =>
    dsimp only [Poller.starts]
    split
    · split
      · exact hgo none _
      · exact hself none
    · split
      · exact hself none
      · split
        · exact hgo none _
        · exact hself none
  | getRemoved st round =>
    dsimp only [Poller.starts]
    cases hremoved : r.getRemovedStationId st.stationName with
    | some removedId =>
      dsimp only
      by_cases heq : removedId = st.stationId
      · rw [if_pos heq, if_pos (congrArg some heq)]
        exact List.Sublist.refl _
      · rw [if_neg heq]
        exact hself _
    | none => exact hself _
  | remnant st round =>
    dsimp only [Poller.starts]
    split
    · exact hself none
    · exact List.Sublist.refl _
  | setConflict st oldId round => exact hgo none _
  | remember st k => exact hself none
  | stopping st k =>
    exact (sublist_goOn _ k).trans (List.filter_sublist.trans (hself none))

theorem sublist_raised (p : Poller) : p.raised.tasks.Sublist p.tasks := by
  unfold Poller.raised
  cases hpc : p.pc with
  | down => exact List.Sublist.refl _
  | idle => exact List.Sublist.refl _
  | bootFetch => exact List.nil_sublist _
  | bootSync stations => exact List.nil_sublist _
  | bootConflict st rest => exact List.nil_sublist _
  | fetch => exact List.Sublist.refl _
  | started st k => exact sublist_goOn p k
  | remember st k => exact List.Sublist.refl _
  | stopping st k => exact (sublist_goOn _ k).trans List.filter_sublist
  | _ => exact sublist_nextShutdown p _

theorem sublist_interrupted (p : Poller) : p.interrupted.tasks.Sublist p.tasks := by
  unfold Poller.interrupted
  split
  all_goals first
    | exact List.nil_sublist _
    | exact List.Sublist.refl _
    | exact sublist_nextShutdown p _

/-- A task that is started for a name is the only one of the name. -/
theorem orderly_start {st : StationInfo} {k : Resume} (h : p.Orderly) (hcalm : p.pc.Calm)
    (hfresh : ∀ t ∈ p.tasks, t.stationName ≠ st.stationName) : (p.start st k).Orderly where
  held := fun t ht => Or.inl (Table.mem_upsert.mpr (by
    rcases List.mem_cons.mp ht with rfl | ht
    · exact Or.inl rfl
    · exact Or.inr ⟨h.running hcalm t ht, hfresh t ht⟩))
  probes := fun _ h => by contradiction

/-- The state in which a task is started. -/
theorem resume_of_starts {st : StationInfo} (db : List StationInfo)
    (hst : Poller.starts r p.pc = some st) :
    p.pc.Calm ∧ (∃ k, p.resume db r = p.start st k) ∧
      (p.pc.probes = some st ∨ ∃ rest, p.pc = .bootConflict st rest) := by
  unfold Poller.resume
  cases hpc : p.pc with
  | bootConflict s rest =>
    rw [hpc] at hst
    dsimp only [Poller.starts] at hst
    split at hst
    · contradiction
    · next hfree =>
      obtain rfl := Option.some.inj hst
      exact ⟨⟨rfl, rfl⟩, ⟨_, if_neg hfree⟩, Or.inr ⟨rest, rfl⟩⟩
  | getRemoved s round =>
    rw [hpc] at hst
    dsimp only [Poller.starts] at hst
    split at hst
    · next hid =>
      obtain rfl := Option.some.inj hst
      refine ⟨⟨rfl, rfl⟩, ⟨.round round, ?_⟩, Or.inl rfl⟩
      dsimp only
      rw [hid]
      exact if_pos rfl
    · contradiction
  | remnant s round =>
    rw [hpc] at hst
    dsimp only [Poller.starts] at hst
    split at hst
    · contradiction
    · next hfree =>
      obtain rfl := Option.some.inj hst
      exact ⟨⟨rfl, rfl⟩, ⟨_, if_neg hfree⟩, Or.inl rfl⟩
  | _ =>
    rw [hpc] at hst
    contradiction

/-- A task that has not ended is in the dict or is being stopped, and is
there once. -/
structure Tidy (p : Poller) : Prop where
  orderly : p.Orderly
  nodup : p.tasks.Nodup

theorem tidy_resume (db : List StationInfo) (h : Tidy p)
    (hboot : ∀ st rest, p.pc = .bootConflict st rest →
      Poller.starts r p.pc = some st → ∀ t ∈ p.tasks, t.stationName ≠ st.stationName) :
    Tidy (p.resume db r) := by
  have hsub := sublist_resume db r p
  cases hst : Poller.starts r p.pc with
  | none =>
    rw [hst] at hsub
    refine ⟨(Poller.moves_resume db r p).orderly h.orderly fun st h => ?_, hsub.nodup h.nodup⟩
    rw [hst] at h
    contradiction
  | some st =>
    rw [hst] at hsub
    obtain ⟨hcalm, ⟨k, hresume⟩, hat⟩ := resume_of_starts db hst
    have hfresh : ∀ t ∈ p.tasks, t.stationName ≠ st.stationName := by
      rcases hat with hprobes | ⟨rest, hpc⟩
      · exact fun t ht => h.orderly.probes st hprobes t (h.orderly.running hcalm t ht)
      · exact hboot st rest hpc hst
    refine ⟨?_, hsub.nodup (List.nodup_cons.mpr ⟨?_, h.nodup⟩)⟩
    · rw [hresume]
      exact orderly_start h.orderly hcalm hfresh
    · exact fun hmem => hfresh st hmem rfl

theorem tidy_of_moves (h : Tidy p) (hmoves : p.Moves none p')
    (hsub : p'.tasks.Sublist p.tasks) : Tidy p' where
  orderly := hmoves.orderly h.orderly fun _ h => by contradiction
  nodup := hsub.nodup h.nodup

/-- One task ends by itself. -/
theorem tidy_taskEnds (st : StationInfo) (h : Tidy p) :
    Tidy { p with tasks := p.tasks.filter fun t => t != st } where
  orderly := ⟨fun t ht => h.orderly.held t (List.mem_filter.mp ht).1, h.orderly.probes⟩
  nodup := List.filter_sublist.nodup h.nodup

theorem tidy_empty : Tidy {} := ⟨Poller.orderly_empty, List.nodup_nil⟩

end Supervision

end DustMonitoring.Dumopro
