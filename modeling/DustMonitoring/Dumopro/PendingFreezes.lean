import DustMonitoring.Dumopro.StationTask

/-!
# The buckets that wait for their freeze

The calls that a station task makes of its `GraceFreezer`: a bucket is
scheduled when a sample is the first of the next one, and what `due` reports is
frozen and dropped.  The freezer holds one bucket for each unit, and `due` goes
over `UNITS`, which has no hour.

* `losesNothing_iff`: every bucket is reported from the end of its grace time
  until it is dropped exactly when no hour is ever owed, and no bucket whose
  grace time is over had another one of its unit scheduled after it.
* `freezer_run`, `dropsDue_calls`: the freezer of a run of ticks is the one
  after the calls of the run, and these drop only what was reported.
-/

namespace DustMonitoring.Dumopro

open DustMonitoring.Lib

namespace GraceFreezer

/-! ## Calls -/

/-- A call of the freezer, with the wall clock that it reads. -/
inductive Call where
  | schedule (now : Rat) (unit : BucketUnit) (bkey : BucketKey)
  | due (now : Rat)
  | drop (unit : BucketUnit) (bkey : BucketKey)
deriving DecidableEq

/-- The freezer after a call. -/
def call (graceSeconds : Rat) (f : GraceFreezer) : Call → GraceFreezer
  | .schedule now unit bkey => f.schedule graceSeconds now unit bkey
  | .due _ => f
  | .drop unit bkey => f.drop unit bkey

def Call.time? : Call → Option Rat
  | .schedule now _ _ => some now
  | .due now => some now
  | .drop _ _ => none

def Call.IsDrop : Call → Prop
  | .drop _ _ => True
  | _ => False

/-- The clock does not go back. -/
def ClockOrdered (calls : List Call) : Prop :=
  calls.Pairwise fun c d => ∀ s ∈ c.time?, ∀ t ∈ d.time?, s ≤ t

/-- What is dropped was reported by the last call of `due`, with nothing but
drops since. -/
def DropsDue (graceSeconds : Rat) (f : GraceFreezer) (calls : List Call) : Prop :=
  ∀ pre unit bkey post, calls = pre ++ .drop unit bkey :: post →
    ∃ before now drops, pre = before ++ .due now :: drops ∧ (∀ d ∈ drops, d.IsDrop) ∧
      (unit, bkey) ∈ (run (call graceSeconds) f before).due now

/-- The bucket was scheduled at this time, and not dropped since. -/
structure Waits (pre : List Call) (t : Rat) (unit : BucketUnit) (bkey : BucketKey)
    (since : List Call) : Prop where
  scheduled : ∃ before, pre = before ++ .schedule t unit bkey :: since
  kept : .drop unit bkey ∉ since

/-- Every call of `due` reports all the buckets whose grace time is over. -/
def LosesNothing (graceSeconds : Rat) (calls : List Call) : Prop :=
  ∀ pre now post, calls = pre ++ .due now :: post →
    ∀ t unit bkey since, Waits pre t unit bkey since → t + graceSeconds ≤ now →
      (unit, bkey) ∈ (run (call graceSeconds) {} pre).due now

/-- Whenever `due` is called, a bucket whose grace time is over is not an hour,
and no other one of its unit was scheduled after it. -/
def Undisturbed (graceSeconds : Rat) (calls : List Call) : Prop :=
  ∀ pre now post, calls = pre ++ .due now :: post →
    ∀ t unit bkey since, Waits pre t unit bkey since → t + graceSeconds ≤ now →
      unit ≠ .hour ∧ ∀ t' bkey', .schedule t' unit bkey' ∈ since → bkey' = bkey

/-! ## What a call does to a slot -/

variable {g now : Rat} {f : GraceFreezer} {unit : BucketUnit} {bkey : BucketKey}

theorem mem_freezerUnits_iff : unit ∈ freezerUnits ↔ unit ≠ .hour := by
  cases unit <;> decide

theorem mem_due_iff :
    (unit, bkey) ∈ f.due now ↔
      unit ≠ .hour ∧ ∃ r, f.pending unit = some ⟨bkey, r⟩ ∧ r ≤ now := by
  rw [due, List.mem_filterMap, ← mem_freezerUnits_iff]
  constructor
  · rintro ⟨u, hu, h⟩
    cases hpending : f.pending u with
    | none => simp [hpending] at h
    | some pf =>
      simp only [hpending] at h
      split at h
      · next hready =>
        obtain ⟨rfl, rfl⟩ := Prod.mk.inj (Option.some.inj h)
        exact ⟨hu, pf.readyAt, hpending, hready⟩
      · contradiction
  · rintro ⟨hu, r, hpending, hready⟩
    refine ⟨unit, hu, ?_⟩
    simp [hpending, hready]

/-- What waits after a call waited before it, or was scheduled by it. -/
theorem pending_call_cases {c : Call} {pf : PendingFreeze}
    (h : (call g f c).pending unit = some pf) :
    f.pending unit = some pf ∨
      ∃ now, c = .schedule now unit pf.bucketKey ∧ pf.readyAt = now + g := by
  cases c with
  | due now => exact Or.inl h
  | drop unit' bkey' =>
    refine Or.inl ?_
    rw [call, drop] at h
    split at h
    · dsimp only at h
      by_cases hu : unit = unit'
      · rw [hu, Function.update_self] at h
        contradiction
      · rwa [Function.update_of_ne hu] at h
    · exact h
  | schedule now unit' bkey' =>
    rw [call, schedule] at h
    split at h
    · exact Or.inl h
    · dsimp only at h
      by_cases hu : unit = unit'
      · rw [hu, Function.update_self] at h
        obtain rfl := Option.some.inj h
        exact Or.inr ⟨now, by rw [hu], rfl⟩
      · rw [Function.update_of_ne hu] at h
        exact Or.inl h

/-- A call leaves a bucket in its slot that it neither drops nor replaces. -/
theorem pending_call_of_kept {c : Call} {r : Rat} (hkept : c ≠ .drop unit bkey)
    (halone : ∀ t' bkey', c = .schedule t' unit bkey' → bkey' = bkey)
    (h : f.pending unit = some ⟨bkey, r⟩) : (call g f c).pending unit = some ⟨bkey, r⟩ := by
  cases c with
  | due now => exact h
  | drop unit' bkey' =>
    rw [call, drop]
    split
    · next hany =>
      have hu : unit ≠ unit' := by
        rintro rfl
        rw [h, Option.any_some, beq_iff_eq] at hany
        exact hkept (by rw [← hany])
      exact (Function.update_of_ne hu _ _).trans h
    · exact h
  | schedule now unit' bkey' =>
    rw [call, schedule]
    split
    · exact h
    · next hany =>
      have hu : unit ≠ unit' := by
        rintro rfl
        rw [h, Option.any_some, beq_iff_eq] at hany
        exact hany (halone now bkey' rfl).symm
      exact (Function.update_of_ne hu _ _).trans h

/-- A bucket that is scheduled is in its slot. -/
theorem exists_pending_schedule (f : GraceFreezer) (g now : Rat) (unit : BucketUnit)
    (bkey : BucketKey) :
    ∃ r, (f.schedule g now unit bkey).pending unit = some ⟨bkey, r⟩ := by
  unfold schedule
  split
  · next h =>
    obtain ⟨pf, hpf, hkey⟩ := Option.any_eq_true _ _ |>.mp h
    exact ⟨pf.readyAt, by rw [hpf, ← eq_of_beq hkey]⟩
  · exact ⟨now + g, Function.update_self _ _ _⟩

/-! ## What a run of calls does to a slot -/

/-- What waits for its freeze was scheduled by now. -/
theorem readyAt_le {calls : List Call} {t : Rat} (hbefore : ∀ c ∈ calls, ∀ s ∈ c.time?, s ≤ t)
    {pf : PendingFreeze} (h : (run (call g) {} calls).pending unit = some pf) :
    pf.readyAt ≤ t + g := by
  have hstep : ∀ (f : GraceFreezer), ∀ c ∈ calls,
      (∀ pf, f.pending unit = some pf → pf.readyAt ≤ t + g) →
        ∀ pf, (call g f c).pending unit = some pf → pf.readyAt ≤ t + g := by
    intro f c hc hf pf hpf
    rcases pending_call_cases hpf with hpf | ⟨now, rfl, hready⟩
    · exact hf pf hpf
    · rw [hready]
      exact Rat.add_le_add_right.mpr (hbefore _ hc now rfl)
  exact run_invariant_of_mem hstep (fun pf h => by simp at h) pf h

/-- What takes the slot of a bucket is ready no sooner than the bucket. -/
theorem le_readyAt {since : List Call} {t : Rat}
    (hafter : ∀ c ∈ since, ∀ s ∈ c.time?, t ≤ s)
    (h : ∀ pf, f.pending unit = some pf → pf.bucketKey ≠ bkey → t + g ≤ pf.readyAt)
    {pf : PendingFreeze} (hpf : (run (call g) f since).pending unit = some pf)
    (hne : pf.bucketKey ≠ bkey) : t + g ≤ pf.readyAt := by
  have hstep : ∀ (f : GraceFreezer), ∀ c ∈ since,
      (∀ pf, f.pending unit = some pf → pf.bucketKey ≠ bkey → t + g ≤ pf.readyAt) →
        ∀ pf, (call g f c).pending unit = some pf → pf.bucketKey ≠ bkey → t + g ≤ pf.readyAt := by
    intro f c hc hf pf hpf hne
    rcases pending_call_cases hpf with hpf | ⟨now, rfl, hready⟩
    · exact hf pf hpf hne
    · rw [hready]
      exact Rat.add_le_add_right.mpr (hafter _ hc now rfl)
  exact run_invariant_of_mem hstep h pf hpf hne

/-- A bucket keeps its slot while no other one of its unit is scheduled and it
is not dropped. -/
theorem pending_run_of_kept {since : List Call} {r : Rat} (hkept : .drop unit bkey ∉ since)
    (halone : ∀ t' bkey', .schedule t' unit bkey' ∈ since → bkey' = bkey)
    (h : f.pending unit = some ⟨bkey, r⟩) :
    (run (call g) f since).pending unit = some ⟨bkey, r⟩ := by
  have hstep : ∀ (f : GraceFreezer), ∀ c ∈ since, f.pending unit = some ⟨bkey, r⟩ →
      (call g f c).pending unit = some ⟨bkey, r⟩ := by
    intro f c hc hf
    refine pending_call_of_kept ?_ ?_ hf
    · rintro rfl
      exact hkept hc
    · rintro t' bkey' rfl
      exact halone t' bkey' hc
  exact run_invariant_of_mem hstep h

/-! ## Buckets that wait -/

variable {calls pre since : List Call} {t : Rat}

/-- The calls before and after one do not read the clock after and before it. -/
theorem clock_of_append {before : List Call} {c : Call} {s : Rat} (hc : s ∈ c.time?)
    (h : ClockOrdered (before ++ c :: since)) :
    (∀ d ∈ before, ∀ t ∈ d.time?, t ≤ s) ∧ ∀ d ∈ since, ∀ t ∈ d.time?, s ≤ t := by
  obtain ⟨-, hsince, hbefore⟩ := List.pairwise_append.mp h
  refine ⟨fun d hd t ht => hbefore d hd c List.mem_cons_self t ht s hc, fun d hd t ht => ?_⟩
  exact (List.pairwise_cons.mp hsince).1 d hd s hc t ht

/-- An undisturbed bucket is still in its slot. -/
theorem exists_pending_of_waits (hclock : ClockOrdered pre) (h : Waits pre t unit bkey since)
    (halone : ∀ t' bkey', .schedule t' unit bkey' ∈ since → bkey' = bkey) :
    ∃ r, (run (call g) {} pre).pending unit = some ⟨bkey, r⟩ ∧ r ≤ t + g := by
  obtain ⟨⟨before, rfl⟩, hkept⟩ := h
  obtain ⟨hbefore, -⟩ := clock_of_append (c := .schedule t unit bkey) rfl hclock
  rw [run_append, run_cons]
  obtain ⟨r, hr⟩ := exists_pending_schedule (run (call g) {} before) g t unit bkey
  refine ⟨r, pending_run_of_kept hkept halone hr, ?_⟩
  rcases pending_call_cases (c := .schedule t unit bkey) hr with hold | ⟨now, hcall, hready⟩
  · exact readyAt_le hbefore hold
  · obtain ⟨rfl, -, -⟩ := Call.schedule.inj hcall
    exact hready.le

/-- Whoever else is in the slot of a bucket that waits is ready no sooner. -/
theorem le_readyAt_of_waits (hclock : ClockOrdered pre) (h : Waits pre t unit bkey since)
    {pf : PendingFreeze} (hpf : (run (call g) {} pre).pending unit = some pf)
    (hne : pf.bucketKey ≠ bkey) : t + g ≤ pf.readyAt := by
  obtain ⟨⟨before, rfl⟩, -⟩ := h
  obtain ⟨-, hafter⟩ := clock_of_append (c := .schedule t unit bkey) rfl hclock
  rw [run_append, run_cons] at hpf
  refine le_readyAt hafter (fun pf' hpf' hne' => ?_) hpf hne
  obtain ⟨r, hr⟩ := exists_pending_schedule (run (call g) {} before) g t unit bkey
  obtain rfl := Option.some.inj (hr.symm.trans hpf')
  exact absurd rfl hne'

/-- One bucket of a unit is due at a time. -/
theorem eq_of_mem_due {bkey' : BucketKey} (h : (unit, bkey) ∈ f.due now)
    (h' : (unit, bkey') ∈ f.due now) : bkey = bkey' := by
  obtain ⟨-, r, hr, -⟩ := mem_due_iff.mp h
  obtain ⟨-, r', hr', -⟩ := mem_due_iff.mp h'
  exact (PendingFreeze.mk.inj (Option.some.inj (hr.symm.trans hr'))).1

/-- Two buckets of a unit wait, and the slot is ready with one of them: with the
other one too, if nothing is lost. -/
theorem eq_of_reported {post : List Call} (h : LosesNothing g (pre ++ .due now :: post))
    (hclock : ClockOrdered pre) (hwaits : Waits pre t unit bkey since) {bkey' : BucketKey}
    (hdue : (unit, bkey') ∈ (run (call g) {} pre).due now) : bkey' = bkey := by
  by_contra hne
  obtain ⟨-, r, hpending, hready⟩ := mem_due_iff.mp hdue
  have hlate : t + g ≤ r := le_readyAt_of_waits hclock hwaits hpending hne
  exact hne (eq_of_mem_due hdue (h pre now post rfl t unit bkey since hwaits (hlate.trans hready)))

/-- If nothing is lost, a bucket whose grace time is over is alone. -/
theorem eq_of_losesNothing {post : List Call} (hclock : ClockOrdered (pre ++ .due now :: post))
    (hdrops : DropsDue g {} (pre ++ .due now :: post))
    (h : LosesNothing g (pre ++ .due now :: post)) (hwaits : Waits pre t unit bkey since)
    (hready : t + g ≤ now) {t' : Rat} {bkey' : BucketKey}
    (hother : .schedule t' unit bkey' ∈ since) : bkey' = bkey := by
  have hreported := h pre now post rfl t unit bkey since hwaits hready
  obtain ⟨⟨before, hpre⟩, hkept⟩ := hwaits
  obtain ⟨since₁, since₂, rfl⟩ := List.append_of_mem hother
  rw [List.mem_append, List.mem_cons, not_or, not_or] at hkept
  by_cases hdropped : .drop unit bkey' ∈ since₂
  · -- the other one was reported before it was dropped
    obtain ⟨mid, tail, rfl⟩ := List.append_of_mem hdropped
    obtain ⟨before', now', drops, hmid, hall, hdue⟩ :=
      hdrops (before ++ .schedule t unit bkey :: since₁ ++ .schedule t' unit bkey' :: mid) unit
        bkey' (tail ++ .due now :: post) (by simp [hpre])
    have hother' : Call.schedule t' unit bkey' ∉ Call.due now' :: drops := by
      rw [List.mem_cons, not_or]
      exact ⟨Call.noConfusion, fun hd => hall _ hd⟩
    obtain ⟨mid', hbefore', hmid'⟩ :=
      (append_eq_append_cons hmid.symm).resolve_right fun ⟨as, _, has⟩ =>
        hother' (has ▸ List.mem_append_right as List.mem_cons_self)
    have hcalls : pre ++ .due now :: post =
        before' ++ .due now' :: (drops ++ .drop unit bkey' :: (tail ++ .due now :: post)) := by
      simp [hpre, hbefore', hmid']
    have hwaits' : Waits before' t unit bkey (since₁ ++ .schedule t' unit bkey' :: mid') := by
      refine ⟨⟨before, by simp [hbefore']⟩, ?_⟩
      rw [hmid'] at hkept
      simp only [List.mem_append, List.mem_cons, not_or] at hkept ⊢
      exact ⟨hkept.1, hkept.2.1, hkept.2.2.1.1⟩
    rw [hcalls] at h hclock
    exact eq_of_reported h (List.pairwise_append.mp hclock).1 hwaits' hdue
  · have hwaits' : Waits pre t' unit bkey' since₂ :=
      ⟨⟨before ++ .schedule t unit bkey :: since₁, by simp [hpre]⟩, hdropped⟩
    exact (eq_of_reported h (List.pairwise_append.mp hclock).1 hwaits' hreported).symm

/-- Nothing is lost exactly when, whenever `due` is called, each bucket whose
grace time is over is no hour and alone. -/
theorem losesNothing_iff (hclock : ClockOrdered calls) (hdrops : DropsDue g {} calls) :
    LosesNothing g calls ↔ Undisturbed g calls := by
  constructor
  · rintro h pre now post rfl t unit bkey since hwaits hready
    have hdue := h pre now post rfl t unit bkey since hwaits hready
    refine ⟨(mem_due_iff.mp hdue).1, fun t' bkey' hother => ?_⟩
    exact eq_of_losesNothing hclock hdrops h hwaits hready hother
  · rintro h pre now post rfl t unit bkey since hwaits hready
    obtain ⟨hunit, halone⟩ := h pre now post rfl t unit bkey since hwaits hready
    obtain ⟨r, hpending, hr⟩ :=
      exists_pending_of_waits (List.pairwise_append.mp hclock).1 hwaits halone
    exact mem_due_iff.mpr ⟨hunit, r, hpending, hr.trans hready⟩

/-! ## The calls of a station task -/

theorem dropsDue_append {xs ys : List Call} (hxs : DropsDue g f xs)
    (hys : DropsDue g (run (call g) f xs) ys) : DropsDue g f (xs ++ ys) := by
  intro pre unit bkey post h
  rcases append_eq_append_cons h with ⟨as, hfirst, -⟩ | ⟨as, rfl, hsecond⟩
  · exact hxs pre unit bkey as hfirst
  · obtain ⟨before, now, drops, rfl, hall, hdue⟩ := hys as unit bkey post hsecond
    rw [← run_append] at hdue
    exact ⟨xs ++ before, now, drops, (List.append_assoc _ _ _).symm, hall, hdue⟩

/-- Some calls without a drop, and then what is due is dropped. -/
theorem dropsDue_block {calls : List Call} (hcalls : ∀ c ∈ calls, ¬ c.IsDrop) :
    DropsDue g f (calls ++ .due now ::
      ((run (call g) f calls).due now).map fun p => .drop p.1 p.2) := by
  intro pre unit bkey post h
  rw [← List.singleton_append, ← List.append_assoc] at h
  rcases append_eq_append_cons h with ⟨as, hfirst, -⟩ | ⟨as, rfl, hsecond⟩
  · have hmem : Call.drop unit bkey ∈ calls ++ [.due now] :=
      hfirst ▸ List.mem_append_right pre List.mem_cons_self
    rcases List.mem_append.mp hmem with hmem | hmem
    · exact absurd trivial (hcalls _ hmem)
    · simp at hmem
  · have hdrop : ∀ d ∈ as ++ .drop unit bkey :: post,
        ∃ p ∈ (run (call g) f calls).due now, Call.drop p.1 p.2 = d := fun d hd =>
      List.mem_map.mp (hsecond ▸ hd)
    refine ⟨calls, now, as, by simp, fun d hd => ?_, ?_⟩
    · obtain ⟨p, -, rfl⟩ := hdrop d (List.mem_append_left _ hd)
      trivial
    · obtain ⟨p, hp, heq⟩ := hdrop _ (List.mem_append_right as List.mem_cons_self)
      obtain ⟨rfl, rfl⟩ := Call.drop.inj heq
      exact hp

/-- A day and its week are scheduled one after the other, reported when their 30
seconds are over, and dropped. -/
def mondayCalls : List Call :=
  [.schedule 0 .day [2026, 1, 4], .schedule 5 .week [2026, 1], .due 20, .due 40,
    .drop .day [2026, 1, 4], .drop .week [2026, 1]]

theorem losesNothing_mondayCalls : LosesNothing 30 mondayCalls := by
  have hclock : ClockOrdered mondayCalls := by
    simp only [ClockOrdered, mondayCalls, List.pairwise_cons, List.forall_mem_cons]
    decide +kernel
  have hdrops : DropsDue 30 {} mondayCalls := by
    have hblock : ∀ c ∈ mondayCalls.take 3, ¬ c.IsDrop := by
      simp [mondayCalls, Call.IsDrop]
    have hcalls : mondayCalls = mondayCalls.take 3 ++ .due 40 ::
        ((run (call 30) {} (mondayCalls.take 3)).due 40).map fun p => .drop p.1 p.2 := by
      decide +kernel
    rw [hcalls]
    exact dropsDue_block hblock
  have hscheduled : ∀ t unit bkey, .schedule t unit bkey ∈ mondayCalls →
      unit = .day ∧ bkey = [2026, 1, 4] ∨ unit = .week ∧ bkey = [2026, 1] := by
    simp only [mondayCalls, List.mem_cons, List.not_mem_nil, Call.schedule.injEq, reduceCtorEq,
      or_false]
    exact fun _ _ _ h => h.imp And.right And.right
  apply (losesNothing_iff hclock hdrops).mpr
  rintro pre now post hcalls t unit bkey since ⟨⟨before, rfl⟩, -⟩ -
  have hmem : ∀ c ∈ .schedule t unit bkey :: since, c ∈ mondayCalls := fun c hc => by
    rw [hcalls]
    exact List.mem_append_left _ (List.mem_append_right before hc)
  -- every unit has one bucket
  have hbuckets : ∀ t' bkey', .schedule t' unit bkey' ∈ since →
      unit = .day ∧ bkey' = [2026, 1, 4] ∨ unit = .week ∧ bkey' = [2026, 1] :=
    fun t' bkey' h => hscheduled t' unit bkey' (hmem _ (List.mem_cons_of_mem _ h))
  rcases hscheduled t unit bkey (hmem _ List.mem_cons_self) with ⟨rfl, rfl⟩ | ⟨rfl, rfl⟩
  · exact ⟨by decide, fun t' bkey' h => by simpa using hbuckets t' bkey' h⟩
  · exact ⟨by decide, fun t' bkey' h => by simpa using hbuckets t' bkey' h⟩

end GraceFreezer

namespace StationTask

open GraceFreezer (Call call DropsDue)

/-- A sample and a unit. -/
def addStep (c : Settings) (clock : Nat → BucketUnit → Rat) (t : StationTask)
    (p : SampleRow × BucketUnit) : StationTask :=
  addSample c (clock p.1.id) p.1 t p.2

/-- The call of `schedule` for a sample and a unit, if there is one. -/
def scheduleCalls (clock : Nat → BucketUnit → Rat) (t : StationTask)
    (p : SampleRow × BucketUnit) : List Call :=
  match t.lastBucketKeys p.2 with
  | none => []
  | some prev =>
    if prev ≠ bucketKey p.1.sampledAt p.2 then [.schedule (clock p.1.id p.2) p.2 prev] else []

/-- The samples of a batch with all units. -/
def withUnits (batch : List SampleRow) : List (SampleRow × BucketUnit) :=
  batch.flatMap fun s => unitList.map fun unit => (s, unit)

/-- The calls of the freezer in a tick. -/
def tickCalls (c : Settings) (t : StationTask) (τ : Tick) : List Call :=
  outputs (addStep c τ.clock) (scheduleCalls τ.clock) t (withUnits (fetched c t τ)) ++
    .due τ.dueAt ::
      ((handleBatch c τ.clock (fetched c t τ) t).freezer.due τ.dueAt).map
        fun p => .drop p.1 p.2

/-- The calls of the freezer in a run of ticks. -/
def freezerCalls (c : Settings) (ticks : List Tick) : List Call :=
  outputs (tick c) (tickCalls c) {} ticks

variable {c : Settings}

theorem foldl_handleSample_eq (clock : Nat → BucketUnit → Rat) (batch : List SampleRow)
    (t : StationTask) :
    batch.foldl (handleSample c clock) t = run (addStep c clock) t (withUnits batch) := by
  rw [withUnits, run_flatMap]
  rfl

theorem freezer_addStep (clock : Nat → BucketUnit → Rat) (t : StationTask)
    (p : SampleRow × BucketUnit) :
    (addStep c clock t p).freezer =
      run (call c.gracePeriodSec) t.freezer (scheduleCalls clock t p) := by
  simp only [addStep, addSample, scheduleCalls]
  cases t.lastBucketKeys p.2 with
  | none => rfl
  | some prev =>
    dsimp only
    split <;> rfl

theorem freezer_handleBatch (clock : Nat → BucketUnit → Rat) (batch : List SampleRow)
    (t : StationTask) :
    (handleBatch c clock batch t).freezer =
      run (call c.gracePeriodSec) t.freezer
        (outputs (addStep c clock) (scheduleCalls clock) t (withUnits batch)) := by
  rw [← run_outputs (freezer_addStep clock), ← foldl_handleSample_eq, handleBatch]
  cases hlast : batch.getLast? with
  | none =>
    rw [List.getLast?_eq_none_iff.mp hlast]
    rfl
  | some last => rfl

theorem freezer_foldl_freeze (due : List (BucketUnit × BucketKey)) (t : StationTask) :
    (due.foldl freeze t).freezer =
      run (call c.gracePeriodSec) t.freezer (due.map fun p => .drop p.1 p.2) := by
  induction due generalizing t with
  | nil => rfl
  | cons p due ih =>
    rw [List.foldl_cons, ih, List.map_cons, run_cons]
    congr 1
    unfold freeze
    split <;> rfl

/-- The freezer after a tick is the one after its calls. -/
theorem freezer_tick (t : StationTask) (τ : Tick) :
    (tick c t τ).freezer = run (call c.gracePeriodSec) t.freezer (tickCalls c t τ) := by
  rw [tick, processFreezes, freezer_foldl_freeze (c := c), tickCalls, run_append, run_cons,
    freezer_handleBatch]
  rfl

/-- The freezer after a run is the one after its calls. -/
theorem freezer_run (t : StationTask) (ticks : List Tick) :
    (run (tick c) t ticks).freezer =
      run (call c.gracePeriodSec) t.freezer (outputs (tick c) (tickCalls c) t ticks) :=
  run_outputs freezer_tick t ticks

theorem not_isDrop_of_mem_scheduleCalls {clock : Nat → BucketUnit → Rat} {t : StationTask}
    {items : List (SampleRow × BucketUnit)} {d : Call}
    (h : d ∈ outputs (addStep c clock) (scheduleCalls clock) t items) : ¬ d.IsDrop := by
  induction items generalizing t with
  | nil => exact absurd h List.not_mem_nil
  | cons p items ih =>
    rcases List.mem_append.mp h with h | h
    · unfold scheduleCalls at h
      split at h
      · exact absurd h List.not_mem_nil
      · split at h
        · rw [List.mem_singleton.mp h]
          exact not_false
        · exact absurd h List.not_mem_nil
    · exact ih h

/-- A run of ticks drops only what was reported. -/
theorem dropsDue_calls (t : StationTask) (ticks : List Tick) :
    DropsDue c.gracePeriodSec t.freezer (outputs (tick c) (tickCalls c) t ticks) := by
  induction ticks generalizing t with
  | nil => simp [DropsDue, outputs]
  | cons τ ticks ih =>
    have hblock : DropsDue c.gracePeriodSec t.freezer (tickCalls c t τ) := by
      rw [tickCalls, freezer_handleBatch]
      exact GraceFreezer.dropsDue_block fun d hd => not_isDrop_of_mem_scheduleCalls hd
    have htail := ih (tick c t τ)
    rw [freezer_tick] at htail
    exact GraceFreezer.dropsDue_append hblock htail

/-! ## Buckets that are lost -/

/-- The samples of a station, at these times. -/
def rowsAt (times : List DateTime) : List SampleRow :=
  times.mapIdx fun i sampledAt => ⟨i + 1, "s1", "dust_concentration", 0, sampledAt⟩

def twoHours : Table SampleRow.id :=
  ⟨rowsAt [⟨2026, 1, 1, 10, 0, 0, 0⟩, ⟨2026, 1, 1, 11, 0, 0, 0⟩], by decide⟩

def threeDays : Table SampleRow.id :=
  ⟨rowsAt [⟨2026, 1, 1, 10, 0, 0, 0⟩, ⟨2026, 1, 2, 10, 0, 0, 0⟩, ⟨2026, 1, 3, 10, 0, 0, 0⟩],
    by decide⟩

def stationOne : Settings where
  stationId := "s1"
  measurementType := "dust_concentration"

/-- A tick that reads the samples at once, and one 40 seconds after it. -/
def twoTicks (rows : Table SampleRow.id) : List Tick :=
  [⟨rows, fun _ _ => 0, 0⟩, ⟨rows, fun _ _ => 40, 40⟩]

def twoHoursCalls : List Call :=
  [.schedule 0 .hour [2026, 1, 1, 10], .due 0, .due 40]

def threeDaysCalls : List Call :=
  [.schedule 0 .hour [2026, 1, 1, 10], .schedule 0 .day [2026, 1, 1],
    .schedule 0 .hour [2026, 1, 2, 10], .schedule 0 .day [2026, 1, 2], .due 0, .due 40,
    .drop .day [2026, 1, 2]]

/-- The hour is not reported, and of the two days the second one only. -/
theorem not_losesNothing :
    (freezerCalls stationOne (twoTicks twoHours) = twoHoursCalls ∧
      GraceFreezer.ClockOrdered twoHoursCalls ∧
      ¬ GraceFreezer.LosesNothing 30 twoHoursCalls) ∧
    freezerCalls stationOne (twoTicks threeDays) = threeDaysCalls ∧
      GraceFreezer.ClockOrdered threeDaysCalls ∧
      ¬ GraceFreezer.LosesNothing 30 threeDaysCalls := by
  have hclock : GraceFreezer.ClockOrdered twoHoursCalls ∧
      GraceFreezer.ClockOrdered threeDaysCalls := by
    have hle : (0 : Rat) ≤ 40 := by decide +kernel
    simp [GraceFreezer.ClockOrdered, Call.time?, twoHoursCalls, threeDaysCalls, hle]
  refine ⟨⟨by decide +kernel, hclock.1, fun h => ?_⟩, by decide +kernel, hclock.2, fun h => ?_⟩
  · have hdue := h [.schedule 0 .hour [2026, 1, 1, 10], .due 0] 40 [] rfl 0 .hour [2026, 1, 1, 10]
      [.due 0] ⟨⟨[], rfl⟩, by decide⟩ (by decide +kernel)
    exact (GraceFreezer.mem_due_iff.mp hdue).1 rfl
  · have hdue := h (threeDaysCalls.take 5) 40 [.drop .day [2026, 1, 2]] rfl 0 .day [2026, 1, 1]
      [.schedule 0 .hour [2026, 1, 2, 10], .schedule 0 .day [2026, 1, 2], .due 0]
      ⟨⟨[.schedule 0 .hour [2026, 1, 1, 10]], rfl⟩, by decide⟩ (by decide +kernel)
    revert hdue
    decide +kernel

end StationTask

end DustMonitoring.Dumopro
