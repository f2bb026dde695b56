import DustMonitoring.Dumopro.Station

/-!
# What an attempt of a tick keeps

An attempt reads a batch after its last id, adds each of its samples to the
live sets, moves the cursor to the last one, and freezes buckets.  It ends
after any number of these actions.

* `Ready`: the keys in Redis when the next attempt reads after the id
  `base`.  The cursor may be beyond `base`, and live sets may hold samples
  beyond the cursor, but only as far as the batch after `base` reaches.
* `Closed`: the keys after the cursor was moved, when it has passed all
  samples that are held.
* `SafeAction` is what an action may not do: put a settled sample back in a
  live set, or freeze a bucket that has its candle.

`ready_attemptTick` is the result: an attempt of safe actions takes `Ready`
keys to `Ready` keys, and no candle loses a sample.
-/

namespace DustMonitoring.Dumopro

open DustMonitoring.Lib

/-! ## How far a batch reaches -/

/-- The id is not beyond the batch after `base`. -/
def Reached (src : Source) (rows : Table SampleRow.id) (limit base id : Nat) : Prop :=
  id ≤ base ∨ ∃ s ∈ fetchSamplesSince src rows base limit, id ≤ s.id

section Reached

variable {src : Source} {rows : Table SampleRow.id} {limit base id : Nat}

theorem Reached.mono {id' : Nat} (h : Reached src rows limit base id) (hle : id' ≤ id) :
    Reached src rows limit base id' := by
  rcases h with h | ⟨s, hs, h⟩
  · exact Or.inl (hle.trans h)
  · exact Or.inr ⟨s, hs, hle.trans h⟩

/-- A batch that starts later reaches as far. -/
theorem Reached.later {base' : Nat} (h : Reached src rows limit base id)
    (hle : base ≤ base') : Reached src rows limit base' id := by
  rcases h with h | ⟨s, hs, h⟩
  · exact Or.inl (h.trans hle)
  by_cases hlt : base' < s.id
  · exact Or.inr ⟨s, mem_fetch_of_lt hs hle hlt, h⟩
  · exact Or.inl (h.trans (Nat.not_lt.mp hlt))

theorem Reached.append {rows : SerialTable SampleRow.id} {mk : Nat → SampleRow}
    {hk : ∀ m, (mk m).id = m} (h : Reached src rows.toTable limit base id) :
    Reached src (rows.append mk hk).toTable limit base id := by
  rcases h with h | ⟨s, hs, h⟩
  · exact Or.inl h
  · exact Or.inr ⟨s, mem_fetch_append hs, h⟩

theorem Reached.le_last {last : SampleRow} (h : Reached src rows limit base id)
    (hlast : (fetchSamplesSince src rows base limit).getLast? = some last) :
    id ≤ last.id := by
  rcases h with h | ⟨s, hs, h⟩
  · have hmem := mem_samplesAfter_of_mem_fetch (List.mem_of_getLast? hlast)
    exact h.trans (le_of_lt (mem_samplesAfter.mp hmem).2.2.2)
  · exact h.trans (le_last_of_mem_fetch hlast hs)

theorem Reached.le_base (h : Reached src rows limit base id)
    (hnil : fetchSamplesSince src rows base limit = []) : id ≤ base := by
  rcases h with h | ⟨s, hs, -⟩
  · exact h
  · rw [hnil] at hs
    contradiction

end Reached

/-! ## Between and after the actions -/

/-- The keys when the next batch is read after `base`. -/
structure Ready (c : Settings) (rows : Table SampleRow.id) (r : Redis) (base : Nat) :
    Prop where
  balanced : Balanced (samplesAfter c.toSource rows 0) r
  base_le : base ≤ r.cursorId
  cursor : Reached c.toSource rows c.pollBatchLimit base r.cursorId
  held : ∀ unit, ∀ s ∈ samplesAfter c.toSource rows 0, r.Holds unit s →
    Reached c.toSource rows c.pollBatchLimit base s.id
  fresh : r.cursor = none → ∀ unit bkey, r.frozen unit bkey = none

/-- The keys when the cursor is at `id` and has passed all that is held. -/
structure Closed (samples : List SampleRow) (r : Redis) (id : Nat) : Prop where
  balanced : Balanced samples r
  passed : Passed samples r
  cursor : r.cursorId = id
  fresh : r.cursor = none → ∀ unit bkey, r.frozen unit bkey = none

section Ready

variable {c : Settings} {rows : Table SampleRow.id} {r : Redis} {base : Nat}

theorem Closed.ready {id : Nat} (h : Closed (samplesAfter c.toSource rows 0) r id)
    (hle : base ≤ id) (hid : Reached c.toSource rows c.pollBatchLimit base id) :
    Ready c rows r base where
  balanced := h.balanced
  base_le := h.cursor ▸ hle
  cursor := h.cursor ▸ hid
  held unit s hs hold := hid.mono (h.cursor ▸ h.passed unit s hs hold)
  fresh := h.fresh

theorem Ready.later {base' : Nat} (h : Ready c rows r base) (hle : base ≤ base')
    (hcursor : base' ≤ r.cursorId) : Ready c rows r base' where
  balanced := h.balanced
  base_le := hcursor
  cursor := h.cursor.later hle
  held unit s hs hold := (h.held unit s hs hold).later hle
  fresh := h.fresh

/-- With no sample to read, the cursor has passed all that is held. -/
theorem Ready.closed (h : Ready c rows r base)
    (hnil : fetchSamplesSince c.toSource rows base c.pollBatchLimit = []) :
    Closed (samplesAfter c.toSource rows 0) r base where
  balanced := h.balanced
  passed unit s hs hold := ((h.held unit s hs hold).le_base hnil).trans h.base_le
  cursor := le_antisymm (h.cursor.le_base hnil) h.base_le
  fresh := h.fresh

/-- A sample of the batch goes to a live set. -/
theorem Ready.addSample {s : SampleRow} {unit : BucketUnit} (h : Ready c rows r base)
    (hs : s ∈ fetchSamplesSince c.toSource rows base c.pollBatchLimit)
    (hsafe : SafeAdd r s unit) :
    Ready c rows (r.addSample s unit) base ∧
      Grows (samplesAfter c.toSource rows 0) r (r.addSample s unit) := by
  have hids := nodup_samplesAfter c.toSource rows 0
  have hmem : s ∈ samplesAfter c.toSource rows 0 := by
    obtain ⟨hrow, hst, hmt, hlt⟩ :=
      mem_samplesAfter.mp (mem_samplesAfter_of_mem_fetch hs)
    exact mem_samplesAfter.mpr ⟨hrow, hst, hmt, Nat.zero_lt_of_lt hlt⟩
  obtain ⟨hbalanced, hgrows⟩ := h.balanced.addSample hids hmem hsafe
  refine ⟨⟨hbalanced, h.base_le, h.cursor, fun u x hx hold => ?_, h.fresh⟩, hgrows⟩
  rcases holds_addSample.mp hold with ⟨-, -, heq⟩ | hold
  · exact Or.inr ⟨s, hs, le_of_eq heq⟩
  · exact h.held u x hx hold

/-- The cursor moves to the end of the batch. -/
theorem Ready.setCursor {last : SampleRow} (h : Ready c rows r base)
    (hlast : (fetchSamplesSince c.toSource rows base c.pollBatchLimit).getLast? =
      some last)
    (hheld : ∀ s ∈ fetchSamplesSince c.toSource rows base c.pollBatchLimit,
      ∀ unit, r.Holds unit s) :
    Closed (samplesAfter c.toSource rows 0)
        (r.setCursor last.id last.sampledAt) last.id ∧
      Grows (samplesAfter c.toSource rows 0) r
        (r.setCursor last.id last.sampledAt) := by
  have hbatch : ∀ s ∈ samplesAfter c.toSource rows 0, r.cursorId < s.id →
      s.id ≤ last.id → ∀ unit, r.Holds unit s := by
    intro s hs hlt hle
    obtain ⟨hrow, hst, hmt, -⟩ := mem_samplesAfter.mp hs
    have hafter : s ∈ samplesAfter c.toSource rows base :=
      mem_samplesAfter.mpr ⟨hrow, hst, hmt, lt_of_le_of_lt h.base_le hlt⟩
    exact hheld s (mem_fetch_of_le hlast hafter hle)
  obtain ⟨hbalanced, hgrows⟩ := h.balanced.setCursor (h.cursor.le_last hlast) hbatch
  refine ⟨⟨hbalanced, fun unit s hs hold => (h.held unit s hs hold).le_last hlast, rfl,
    fun hnone => ?_⟩, hgrows⟩
  exact absurd hnone (Option.some_ne_none _)

end Ready

/-! ## Actions -/

instance (r : Redis) (s : SampleRow) (unit : BucketUnit) : Decidable (SafeAdd r s unit) :=
  inferInstanceAs (Decidable (_ → _))

instance (r : Redis) (p : BucketUnit × BucketKey) : Decidable (SafeFreeze r p) :=
  inferInstanceAs (Decidable (_ → _))

namespace StationTask

/-- The action takes no sample out of a candle. -/
def SafeAction (t : StationTask) : Action → Prop
  | .addLiveRaw s unit => SafeAdd t.redis s unit
  | .freezeBucket p => SafeFreeze t.redis p
  | _ => True

instance (t : StationTask) : ∀ action, Decidable (SafeAction t action)
  | .addLiveRaw s unit => inferInstanceAs (Decidable (SafeAdd t.redis s unit))
  | .freezeBucket p => inferInstanceAs (Decidable (SafeFreeze t.redis p))
  | .crossBoundary .. => isTrue trivial
  | .markDirty .. => isTrue trivial
  | .setCursor _ => isTrue trivial
  | .popDirty _ => isTrue trivial
  | .setLiveStats .. => isTrue trivial
  | .dropPending _ => isTrue trivial
  | .freezeItems .. => isTrue trivial
  | .setItemStats .. => isTrue trivial

end StationTask

/-- The actions that follow the cursor in a tick. -/
def Action.Closing : Action → Prop
  | .popDirty _ => True
  | .setLiveStats _ _ => True
  | .freezeBucket _ => True
  | .dropPending _ => True
  | _ => False

section Runs

open StationTask

variable {c : Settings} {clock : Nat → BucketUnit → Rat} {t : StationTask}
  {rows : Table SampleRow.id} {base : Nat} {as : List Action}

theorem mem_addActions {batch : List SampleRow} {a : Action} :
    a ∈ addActions batch ↔ ∃ s ∈ batch, ∃ unit,
      a = .crossBoundary s unit ∨ a = .addLiveRaw s unit ∨ a = .markDirty s unit := by
  simp [addActions, sampleActions, mem_unitList]

theorem act_add {a : Action} (h : Ready c rows t.redis base)
    (ha : a ∈ addActions (fetchSamplesSince c.toSource rows base c.pollBatchLimit))
    (hsafe : SafeAction t a) :
    Ready c rows (act c clock t a).redis base ∧
      Grows (samplesAfter c.toSource rows 0) t.redis (act c clock t a).redis := by
  obtain ⟨s, hs, unit, rfl | rfl | rfl⟩ := mem_addActions.mp ha
  · exact ⟨h, .refl _ _⟩
  · exact h.addSample hs hsafe
  · exact ⟨h, .refl _ _⟩

theorem ready_run_add (h : Ready c rows t.redis base)
    (has : as ⊆ addActions (fetchSamplesSince c.toSource rows base c.pollBatchLimit))
    (hsafe : AllSteps (act c clock) SafeAction t as) :
    Ready c rows (run (act c clock) t as).redis base ∧
      Grows (samplesAfter c.toSource rows 0) t.redis
        (run (act c clock) t as).redis := by
  have hstep : ∀ u a, (Ready c rows u.redis base ∧
        Grows (samplesAfter c.toSource rows 0) t.redis u.redis) →
      SafeAction u a ∧ a ∈ as →
      Ready c rows (act c clock u a).redis base ∧
        Grows (samplesAfter c.toSource rows 0) t.redis (act c clock u a).redis := by
    intro u a hu ha
    obtain ⟨hready, hgrows⟩ := act_add hu.1 (has ha.2) ha.1
    exact ⟨hready, hu.2.trans hgrows⟩
  exact run_invariant_of_allSteps hstep ⟨h, .refl _ _⟩ hsafe.and_mem

/-- After its samples were added, every live set of the batch holds them. -/
theorem holds_run_addActions {batch : List SampleRow} {s : SampleRow} (hs : s ∈ batch)
    (unit : BucketUnit) :
    (run (act c clock) t (addActions batch)).redis.Holds unit s := by
  have hadd : Action.addLiveRaw s unit ∈ addActions batch :=
    mem_addActions.mpr ⟨s, hs, unit, Or.inr (Or.inl rfl)⟩
  refine run_of_mem (D := fun u => u.redis.Holds unit s) (fun u => ?_)
    (fun u a ha hold => ?_) hadd t
  · exact holds_addSample.mpr (Or.inl ⟨rfl, rfl, rfl⟩)
  · obtain ⟨x, -, unit', rfl | rfl | rfl⟩ := mem_addActions.mp ha
    · exact hold
    · exact holds_addSample.mpr (Or.inr hold)
    · exact hold

theorem act_closing {id : Nat} {a : Action}
    (h : Closed (samplesAfter c.toSource rows 0) t.redis id) (ha : a.Closing)
    (hsafe : SafeAction t a) :
    Closed (samplesAfter c.toSource rows 0) (act c clock t a).redis id ∧
      Grows (samplesAfter c.toSource rows 0) t.redis (act c clock t a).redis := by
  cases a with
  | popDirty p => exact ⟨h, .refl _ _⟩
  | dropPending p => exact ⟨h, .refl _ _⟩
  | setLiveStats updatedAt p =>
    show Closed _ (recompute updatedAt t.redis p) id ∧
      Grows _ t.redis (recompute updatedAt t.redis p)
    have hkeeps : Balanced (samplesAfter c.toSource rows 0) (recompute updatedAt t.redis p) ∧
        Grows (samplesAfter c.toSource rows 0) t.redis (recompute updatedAt t.redis p) := by
      rw [recompute_eq]
      exact h.balanced.of_eq rfl rfl rfl
    rw [recompute_eq] at hkeeps ⊢
    exact ⟨⟨hkeeps.1, h.passed, h.cursor, h.fresh⟩, hkeeps.2⟩
  | freezeBucket p =>
    show Closed _ (t.redis.freezeLive p) id ∧ Grows _ t.redis (t.redis.freezeLive p)
    obtain ⟨hbalanced, hgrows, hpassed⟩ :=
      h.balanced.freezeLive (nodup_samplesAfter c.toSource rows 0) h.passed hsafe
    rcases freezeLive_cases (p := p) h.balanced.sound with
      ⟨-, heq⟩ | ⟨hne, stats, ts, -, heq⟩
    · rw [heq]
      exact ⟨h, .refl _ _⟩
    · refine ⟨⟨hbalanced, hpassed, ?_, fun hnone => ?_⟩, hgrows⟩
      · rw [heq]
        exact h.cursor
      · -- without a cursor nothing is held
        rw [heq] at hnone
        obtain ⟨s, hs, -, hold⟩ := exists_holds h.balanced.sound hne
        have hle := h.passed p.1 s hs hold
        rw [Redis.cursorId, show t.redis.cursor = none from hnone] at hle
        exact absurd (mem_samplesAfter.mp hs).2.2.2 (Nat.not_lt.mpr hle)
  | _ => exact ha.elim

theorem closed_run {id : Nat} (h : Closed (samplesAfter c.toSource rows 0) t.redis id)
    (has : ∀ a ∈ as, a.Closing) (hsafe : AllSteps (act c clock) SafeAction t as) :
    Closed (samplesAfter c.toSource rows 0) (run (act c clock) t as).redis id ∧
      Grows (samplesAfter c.toSource rows 0) t.redis (run (act c clock) t as).redis := by
  have hstep : ∀ u a, (Closed (samplesAfter c.toSource rows 0) u.redis id ∧
        Grows (samplesAfter c.toSource rows 0) t.redis u.redis) →
      SafeAction u a ∧ a ∈ as →
      Closed (samplesAfter c.toSource rows 0) (act c clock u a).redis id ∧
        Grows (samplesAfter c.toSource rows 0) t.redis (act c clock u a).redis := by
    intro u a hu ha
    obtain ⟨hclosed, hgrows⟩ := act_closing hu.1 (has a ha.2) ha.1
    exact ⟨hclosed, hu.2.trans hgrows⟩
  exact run_invariant_of_allSteps hstep ⟨h, .refl _ _⟩ hsafe.and_mem

/-! ## An attempt -/

/-- Two closing actions for each bucket. -/
theorem closing_of_mem_flatMap {ps : List (BucketUnit × BucketKey)}
    (f g : BucketUnit × BucketKey → Action) (hfg : ∀ p, (f p).Closing ∧ (g p).Closing)
    {a : Action} (h : a ∈ ps.flatMap fun p => [f p, g p]) : a.Closing := by
  obtain ⟨p, -, ha⟩ := List.mem_flatMap.mp h
  rcases List.mem_pair.mp ha with rfl | rfl
  · exact (hfg p).1
  · exact (hfg p).2

theorem closing_of_mem_freezeActions {due : List (BucketUnit × BucketKey)} {a : Action}
    (h : a ∈ freezeActions due) : a.Closing :=
  closing_of_mem_flatMap .freezeBucket .dropPending (fun _ => ⟨trivial, trivial⟩) h

/-- What follows the samples in a tick. -/
def Tail (batch : List SampleRow) (tail : List Action) : Prop :=
  match batch.getLast? with
  | none => ∀ a ∈ tail, a.Closing
  | some last => ∃ closing, tail = .setCursor last :: closing ∧ ∀ a ∈ closing, a.Closing

theorem exists_tail (c : Settings)
    (pops : List (BucketUnit × BucketKey) → List (BucketUnit × BucketKey))
    (t : StationTask) (τ : Tick) :
    ∃ tail, tickActions c pops t τ = addActions (fetched c t τ) ++ tail ∧
      Tail (fetched c t τ) tail := by
  refine ⟨_, rfl, ?_⟩
  unfold Tail
  cases (fetched c t τ).getLast? with
  | none => exact fun a ha => closing_of_mem_freezeActions ha
  | some last =>
    refine ⟨_, rfl, fun a ha => ?_⟩
    rcases List.mem_append.mp ha with ha | ha
    · exact closing_of_mem_flatMap .popDirty (.setLiveStats last.sampledAt)
        (fun _ => ⟨trivial, trivial⟩) ha
    · exact closing_of_mem_freezeActions ha

theorem closed_run_tail (h : Ready c rows t.redis base)
    (hheld : ∀ s ∈ fetchSamplesSince c.toSource rows base c.pollBatchLimit,
      ∀ unit, t.redis.Holds unit s)
    {tail : List Action}
    (htail : Tail (fetchSamplesSince c.toSource rows base c.pollBatchLimit) tail)
    (has : as <+: tail) (hsafe : AllSteps (act c clock) SafeAction t as) :
    Ready c rows (run (act c clock) t as).redis base ∧
      Grows (samplesAfter c.toSource rows 0) t.redis (run (act c clock) t as).redis ∧
      (as = tail → Closed (samplesAfter c.toSource rows 0) (run (act c clock) t as).redis
        (match (fetchSamplesSince c.toSource rows base c.pollBatchLimit).getLast? with
          | none => base
          | some last => last.id)) := by
  unfold Tail at htail
  cases hlast : (fetchSamplesSince c.toSource rows base c.pollBatchLimit).getLast? with
  | none =>
    rw [hlast] at htail
    have hnil := List.getLast?_eq_none_iff.mp hlast
    obtain ⟨hclosed, hgrows⟩ :=
      closed_run (h.closed hnil) (fun a ha => htail a (has.subset ha)) hsafe
    exact ⟨hclosed.ready le_rfl (Or.inl le_rfl), hgrows, fun _ => hclosed⟩
  | some last =>
    rw [hlast] at htail
    obtain ⟨closing, rfl, hclosing⟩ := htail
    rcases List.prefix_cons_iff.mp has with rfl | ⟨done, rfl, hdone⟩
    · exact ⟨h, .refl _ _, fun hnil => absurd hnil (List.cons_ne_nil _ _).symm⟩
    · obtain ⟨hclosed, hgrows⟩ := h.setCursor hlast hheld
      obtain ⟨hclosed', hgrows'⟩ := closed_run (t := act c clock t (.setCursor last))
        hclosed (fun a ha => hclosing a (hdone.subset ha)) hsafe.2
      have hmem := List.mem_of_getLast? hlast
      have hlt := (mem_samplesAfter.mp (mem_samplesAfter_of_mem_fetch hmem)).2.2.2
      exact ⟨hclosed'.ready (le_of_lt hlt) (Or.inr ⟨last, hmem, le_rfl⟩),
        hgrows.trans hgrows', fun _ => hclosed'⟩

theorem run_act_lastId (t : StationTask) (as : List Action) :
    (run (act c clock) t as).lastId = t.lastId :=
  run_eq (act c clock) StationTask.lastId (fun _ a => by cases a <;> rfl) t as

end Runs

section Attempt

open StationTask

variable {c : Settings} {w : Station} {a : Attempt}

/-- An attempt, whole or cut short. -/
theorem ready_attemptTick (h : Ready c w.rows.toTable w.task.redis w.task.lastId)
    (hsafe : AllSteps (act c a.clock) SafeAction w.task (w.attempted c a)) :
    Ready c w.rows.toTable (w.attemptTick c a).redis (w.attemptTick c a).lastId ∧
      Grows (w.samples c) w.task.redis (w.attemptTick c a).redis := by
  obtain ⟨tail, hactions, htail⟩ := exists_tail c a.pops w.task (w.tickOf a)
  unfold Station.attemptTick
  unfold Station.attempted at hsafe ⊢
  rw [hactions] at hsafe ⊢
  cases hfails : a.failsAfter with
  | none =>
    rw [hfails] at hsafe
    obtain ⟨hadd, hrest⟩ := allSteps_append.mp hsafe
    obtain ⟨hready, hgrows⟩ := ready_run_add h (List.Subset.refl _) hadd
    obtain ⟨hready', hgrows', hclosed⟩ := closed_run_tail hready
      (fun s hs => holds_run_addActions hs) htail (List.prefix_refl tail) hrest
    dsimp only [cutShort]
    rw [run_append]
    have hcursor := (hclosed rfl).cursor
    refine ⟨hready'.later ?_ (le_of_eq hcursor.symm), hgrows.trans hgrows'⟩
    exact hready'.base_le.trans (le_of_eq hcursor)
  | some n =>
    rw [hfails] at hsafe
    dsimp only [cutShort] at hsafe ⊢
    rw [run_act_lastId]
    have hpart := List.take_prefix n (addActions (fetched c w.task (w.tickOf a)) ++ tail)
    -- the exception comes among the samples or after them
    rcases List.prefix_or_prefix_of_prefix hpart (List.prefix_append _ tail) with
      hshort | ⟨done, hdone⟩
    · exact ready_run_add h hshort.subset hsafe
    · rw [← hdone] at hpart hsafe ⊢
      obtain ⟨hadd, hrest⟩ := allSteps_append.mp hsafe
      obtain ⟨hready, hgrows⟩ := ready_run_add h (List.Subset.refl _) hadd
      obtain ⟨hready', hgrows', -⟩ := closed_run_tail hready
        (fun s hs => holds_run_addActions hs) htail
        ((List.prefix_append_right_inj _).mp hpart) hrest
      rw [run_append]
      exact ⟨hready', hgrows.trans hgrows'⟩

end Attempt

end DustMonitoring.Dumopro
