import DustMonitoring.Dumopro.ColdStarts
import DustMonitoring.Dumopro.ColdWarm

/-!
# The candles of a station, over any number of restarts

`Sound` is the invariant of a station: what it says of the keys in Redis
depends on the id after which the next tick reads (`nextAfter`), if there
is such a tick before the next cold start.

* `sound_step` and `kept_step` are the step lemmas, for steps that are safe.
* `candlesKept_run`: in a run of safe steps each frozen candle is the box
  statistics of the settled samples of its bucket, and a later candle of
  the bucket is that of no fewer samples.
* `not_candlesKept_lateSample`: a late sample of a frozen bucket, which is
  then frozen again.
-/

namespace DustMonitoring.Dumopro

open DustMonitoring.Lib

namespace Station

/-! ## The invariant -/

/-- The id after which the next tick reads: that of the task, or that which
the next task takes from the cursor. -/
def nextAfter (w : Station) : Option Nat :=
  if w.running then some w.task.lastId else w.task.redis.cursor.map Prod.fst

/-- The next step of the poller is a tick, or a warm start. -/
def BetweenTicks (w : Station) : Prop := w.nextAfter ≠ none

structure Sound (c : Settings) (w : Station) : Prop where
  cursor_lt : w.task.redis.cursorId < w.rows.next
  ready : ∀ base, w.nextAfter = some base → Ready c w.rows.toTable w.task.redis base
  cold : w.nextAfter = none → ColdReady (w.samples c) w.task.redis

/-- No candle gets lost, and none loses a sample. -/
def Kept (c : Settings) (w w' : Station) : Prop :=
  ∀ unit bkey, w.task.redis.frozen unit bkey ≠ none →
    w'.task.redis.frozen unit bkey ≠ none ∧
      ∀ s ∈ settled (w.samples c) w.task.redis unit bkey,
        s ∈ settled (w'.samples c) w'.task.redis unit bkey

/-- What a tick does is safe. -/
def SafeEvent (c : Settings) (w : Station) : Event → Prop
  | .tick a =>
    w.running = true →
      AllSteps (StationTask.act c a.clock) StationTask.SafeAction w.task (w.attempted c a)
  | _ => True

instance (c : Settings) (w : Station) : ∀ e, Decidable (SafeEvent c w e)
  | .tick _ => inferInstanceAs (Decidable (_ → _))
  | .arrive _ => isTrue trivial
  | .start _ => isTrue trivial
  | .stop => isTrue trivial

variable {c : Settings} {w : Station}

theorem Kept.refl (c : Settings) (w : Station) : Kept c w w :=
  fun _ _ hc => ⟨hc, fun _ hs => hs⟩

theorem Kept.trans {w' w'' : Station} (h : Kept c w w') (h' : Kept c w' w'') :
    Kept c w w'' := by
  intro unit bkey hc
  obtain ⟨hc', hsub⟩ := h unit bkey hc
  obtain ⟨hc'', hsub'⟩ := h' unit bkey hc'
  exact ⟨hc'', fun s hs => hsub' s (hsub s hs)⟩

/-- While there is no cursor there is no candle either. -/
theorem Ready.coldReady {rows : Table SampleRow.id} {r : Redis} {base : Nat}
    (h : Ready c rows r base) (hcursor : r.cursor = none) :
    ColdReady (samplesAfter c.toSource rows 0) r where
  sound := h.balanced.sound
  earlier unit bkey hc := absurd (h.fresh hcursor unit bkey) hc

theorem pos_of_mem_samples {s : SampleRow} (h : s ∈ w.samples c) : 0 < s.id :=
  (mem_samplesAfter.mp h).2.2.2

theorem lt_next_of_mem_samples {s : SampleRow} (h : s ∈ w.samples c) :
    s.id < w.rows.next :=
  w.rows.lt_next s (mem_samplesAfter.mp h).1

/-! ## A sample arrives -/

section Arrive

variable {row : SampleRow}

theorem exists_samples_arrive (c : Settings) (w : Station) (row : SampleRow) :
    ∃ new, (∀ s ∈ new, s.id = w.rows.next) ∧
      (step c w (.arrive row)).samples c = w.samples c ++ new :=
  samplesAfter_append c.toSource w.rows 0 (fun id => { row with id := id }) fun _ => rfl

theorem sound_arrive (h : Sound c w) : Sound c (step c w (.arrive row)) := by
  obtain ⟨new, hnew, heq⟩ := exists_samples_arrive c w row
  have hlt := h.cursor_lt
  refine ⟨?_, fun base hbase => ?_, fun hcold => ?_⟩
  · show w.task.redis.cursorId < w.rows.next + 1
    omega
  · have hready := h.ready base hbase
    have hbalanced :
        Balanced ((step c w (.arrive row)).samples c) w.task.redis := by
      rw [heq]
      refine hready.balanced.append fun s hs => ?_
      rw [hnew s hs]
      exact hlt
    refine ⟨hbalanced, hready.base_le, hready.cursor.append, ?_, hready.fresh⟩
    intro unit s hs hold
    change s ∈ (step c w (.arrive row)).samples c at hs
    rw [heq] at hs
    rcases List.mem_append.mp hs with hs | hs
    · exact (hready.held unit s hs hold).append
    · -- what a live set holds has arrived before
      obtain ⟨e, he, hrepr⟩ := List.mem_map.mp hold
      obtain ⟨x, hx, -, rfl⟩ := hready.balanced.sound unit _ e he
      have hid := repr_inj hrepr
      have hxlt := lt_next_of_mem_samples hx
      have hsid := hnew s hs
      omega
  · have hready := h.cold hcold
    refine ⟨heq ▸ hready.sound.append, fun unit bkey hc => ?_⟩
    obtain ⟨⟨s, hs, hkey⟩, hlatest⟩ := hready.earlier unit bkey hc
    rw [heq]
    refine ⟨⟨s, List.mem_append_left new hs, hkey⟩, fun hall => hlatest fun x hx => ?_⟩
    exact hall x (List.mem_append_left new hx)

theorem kept_arrive (h : Sound c w) : Kept c w (step c w (.arrive row)) := by
  obtain ⟨new, hnew, heq⟩ := exists_samples_arrive c w row
  have hlt := h.cursor_lt
  intro unit bkey hc
  refine ⟨hc, fun s hs => ?_⟩
  rw [heq]
  show s ∈ settled (w.samples c ++ new) w.task.redis unit bkey
  rw [settled_append]
  · exact hs
  · intro x hx
    rw [hnew x hx]
    exact hlt

end Arrive

/-! ## A process stops -/

theorem sound_stop (h : Sound c w) : Sound c (step c w .stop) := by
  refine ⟨h.cursor_lt, fun base hbase => ?_, fun hnone => ?_⟩
  · change w.task.redis.cursor.map Prod.fst = some base at hbase
    by_cases hrunning : w.running = true
    · have hready := h.ready w.task.lastId (if_pos hrunning)
      have hcursor : w.task.redis.cursorId = base := by rw [Redis.cursorId, hbase]; rfl
      have hle := hready.base_le
      exact hready.later (by omega) (by omega)
    · exact h.ready base ((if_neg hrunning).trans hbase)
  · change w.task.redis.cursor.map Prod.fst = none at hnone
    by_cases hrunning : w.running = true
    · exact Ready.coldReady (h.ready w.task.lastId (if_pos hrunning))
        (Option.map_eq_none_iff.mp hnone)
    · exact h.cold ((if_neg hrunning).trans hnone)

/-! ## A process starts -/

section Start

variable {failsAfter : Option Nat}

theorem step_start (c : Settings) (w : Station) (failsAfter : Option Nat) :
    step c w (.start failsAfter) =
      if w.running then w else startOn c (w.samples c) failsAfter w := by
  have hiter : iterAllSamples c.toSource w.rows.toTable 5000 = w.samples c :=
    iterAllSamples_eq (by omega)
  rw [← hiter]
  rfl

/-- The first batch of a station without samples. -/
theorem ready_of_samples_eq_nil {r : Redis} (h : ColdReady (w.samples c) r)
    (hnil : w.samples c = []) (hcursor : r.cursor = none) :
    Ready c w.rows.toTable r 0 := by
  have hfrozen : ∀ unit bkey, r.frozen unit bkey = none := by
    intro unit bkey
    by_contra hc
    obtain ⟨⟨s, hs, -⟩, -⟩ := h.earlier unit bkey hc
    rw [hnil] at hs
    contradiction
  have hnone : ∀ s, s ∉ samplesAfter c.toSource w.rows.toTable 0 :=
    List.eq_nil_iff_forall_not_mem.mp hnil
  have hid : r.cursorId = 0 := by rw [Redis.cursorId, hcursor]; rfl
  refine ⟨⟨h.sound, fun unit bkey candle hc => ?_, fun unit bkey _ => ?_⟩, Nat.zero_le _,
    Or.inl (le_of_eq hid), fun _ s hs => absurd hs (hnone s), fun _ => hfrozen⟩
  · rw [hfrozen] at hc
    contradiction
  · exact List.eq_nil_iff_forall_not_mem.mpr fun s hs => hnone s (mem_settled.mp hs).1

/-- After a cold start came to its end. -/
theorem sound_of_closed {w' : Station} {last : SampleRow} (hrows : w'.rows = w.rows)
    (hlast : last ∈ w.samples c) (hclosed : Closed (w.samples c) w'.task.redis last.id)
    (hnext : w'.nextAfter = some last.id) : Sound c w' := by
  unfold samples at hclosed
  rw [← hrows] at hclosed
  refine ⟨?_, fun base hbase => ?_, fun hnone => ?_⟩
  · rw [hclosed.cursor, hrows]
    exact lt_next_of_mem_samples hlast
  · obtain rfl : last.id = base := Option.some.inj (hnext.symm.trans hbase)
    exact hclosed.ready le_rfl (Or.inl le_rfl)
  · rw [hnext] at hnone
    contradiction

theorem sound_coldStart (h : Sound c w) (hstopped : w.running = false)
    (hcursor : w.task.redis.cursor = none) :
    Sound c (startOn c (w.samples c) failsAfter w) := by
  have hcold := h.cold (by rw [nextAfter, hstopped, hcursor]; rfl)
  have hid : w.task.redis.cursorId < w.rows.next := h.cursor_lt
  rw [Redis.cursorId, hcursor] at hid
  unfold startOn
  rw [hcursor]
  cases hlast : (w.samples c).getLast? with
  | none =>
    have hnil := List.getLast?_eq_none_iff.mp hlast
    have hrun : coldRun c (w.samples c) failsAfter w = w.task := by
      rw [coldRun, hnil]
      cases failsAfter <;> simp [cutShort, StationTask.coldActions]
    dsimp only
    rw [hrun]
    cases failsAfter with
    | none =>
      refine ⟨h.cursor_lt, fun base hbase => ?_, fun hnone => ?_⟩
      · obtain rfl : 0 = base := Option.some.inj hbase
        exact ready_of_samples_eq_nil hcold hnil hcursor
      · exact absurd hnone (Option.some_ne_none _)
    | some n =>
      refine ⟨h.cursor_lt, fun base hbase => h.ready base ?_, fun _ => hcold⟩
      rw [nextAfter, hstopped]
      rw [nextAfter, hstopped] at hbase
      exact hbase
  | some last =>
    have hmem := List.mem_of_getLast? hlast
    have hclosed : Closed (w.samples c) (coldRun c (w.samples c) none w).redis last.id :=
      closed_run_coldActions hcold (pairwise_samplesAfter c.toSource w.rows.toTable 0) hlast
    have hcursor' : (coldRun c (w.samples c) none w).redis.cursor =
        some (last.id, last.sampledAt) := cursor_run_coldActions hlast
    cases failsAfter with
    | none => exact sound_of_closed rfl hmem hclosed rfl
    | some n =>
      have hpart := List.take_prefix n (StationTask.coldActions (w.samples c))
      have hready : ColdReady (w.samples c) (coldRun c (w.samples c) (some n) w).redis :=
        (coldReady_run hcold hpart.subset).1
      have hcut : (coldRun c (w.samples c) (some n) w).redis.cursor = w.task.redis.cursor ∨
          w.samples c ≠ [] ∧ _ := cursor_run_cut hpart
      -- the exception comes before the cursor is written or after it
      rcases hcut with hnone | ⟨-, hall⟩
      · rw [hcursor] at hnone
        refine ⟨?_, fun base hbase => ?_, fun _ => hready⟩
        · rw [Redis.cursorId, hnone]
          exact hid
        · rw [nextAfter, hstopped, hnone] at hbase
          contradiction
      · have hsame : coldRun c (w.samples c) (some n) w = coldRun c (w.samples c) none w :=
          congrArg (run _ w.task) hall
        dsimp only
        rw [hsame]
        refine sound_of_closed rfl hmem hclosed ?_
        rw [nextAfter, hstopped, hcursor']
        rfl

theorem sound_startOn (h : Sound c w) (hstopped : w.running = false) :
    Sound c (startOn c (w.samples c) failsAfter w) := by
  have hnext : w.nextAfter = w.task.redis.cursor.map Prod.fst := by
    rw [nextAfter, hstopped]
    rfl
  cases hcursor : w.task.redis.cursor with
  | some cursor =>
    unfold startOn
    rw [hcursor] at hnext ⊢
    refine ⟨h.cursor_lt, fun base hbase => h.ready base (hnext.trans hbase), fun hnone => ?_⟩
    exact absurd hnone (Option.some_ne_none _)
  | none => exact sound_coldStart h hstopped hcursor

theorem startOn_cases (c : Settings) (samples : List SampleRow) (failsAfter : Option Nat)
    (w : Station) :
    (startOn c samples failsAfter w).rows = w.rows ∧
      ((startOn c samples failsAfter w).task.redis = w.task.redis ∨
        w.task.redis.cursor = none ∧
          (startOn c samples failsAfter w).task.redis =
            (coldRun c samples failsAfter w).redis) := by
  unfold startOn
  cases w.task.redis.cursor with
  | some cursor => exact ⟨rfl, Or.inl rfl⟩
  | none =>
    cases failsAfter with
    | some n => exact ⟨rfl, Or.inr ⟨rfl, rfl⟩⟩
    | none => cases samples.getLast? <;> exact ⟨rfl, Or.inr ⟨rfl, rfl⟩⟩

/-- A cold start keeps the candles that an earlier one left behind. -/
theorem kept_startOn (h : Sound c w) (hstopped : w.running = false) :
    Kept c w (startOn c (w.samples c) failsAfter w) := by
  obtain ⟨hrows, hredis⟩ := startOn_cases c (w.samples c) failsAfter w
  intro unit bkey hc
  have hsamples : (startOn c (w.samples c) failsAfter w).samples c = w.samples c := by
    rw [samples, hrows]
    rfl
  rw [hsamples]
  rcases hredis with hredis | ⟨hcursor, hredis⟩
  · rw [hredis]
    exact ⟨hc, fun _ hs => hs⟩
  · have hcold := h.cold (by rw [nextAfter, hstopped, hcursor]; rfl)
    have hpart : cutShort failsAfter (StationTask.coldActions (w.samples c)) ⊆
        StationTask.coldActions (w.samples c) := by
      cases failsAfter with
      | none => exact List.Subset.refl _
      | some n => exact (List.take_prefix n _).subset
    have hstays : StaysFrozen w.task.redis (coldRun c (w.samples c) failsAfter w).redis :=
      (coldReady_run hcold hpart).2
    rw [hredis]
    refine ⟨hstays unit bkey hc, fun s hs => ?_⟩
    -- no sample is settled before there is a cursor
    obtain ⟨hmem, hle, -⟩ := mem_settled.mp hs
    rw [Redis.cursorId, hcursor] at hle
    have hpos := pos_of_mem_samples hmem
    exact absurd hpos (Nat.not_lt.mpr hle)

end Start

/-! ## A tick -/

section Tick

variable {a : Attempt}

theorem step_tick (c : Settings) (w : Station) (a : Attempt) :
    step c w (.tick a) =
      if w.running then { w with task := w.attemptTick c a } else w :=
  rfl

theorem lastId_attemptTick (c : Settings) (w : Station) (a : Attempt) :
    (w.attemptTick c a).lastId = w.task.lastId ∨
      ∃ s ∈ w.rows.rows, (w.attemptTick c a).lastId = s.id := by
  unfold attemptTick
  cases a.failsAfter with
  | some n => exact Or.inl (run_act_lastId _ _)
  | none =>
    dsimp only
    rw [StationTask.tickResult]
    cases hlast : (StationTask.fetched c w.task (w.tickOf a)).getLast? with
    | none => exact Or.inl rfl
    | some last =>
      have hmem := mem_samplesAfter_of_mem_fetch (List.mem_of_getLast? hlast)
      exact Or.inr ⟨last, (mem_samplesAfter.mp hmem).1, rfl⟩

theorem sound_tick (h : Sound c w) (hrunning : w.running = true)
    (hsafe : SafeEvent c w (.tick a)) :
    Sound c { w with task := w.attemptTick c a } := by
  have hold := h.ready w.task.lastId (if_pos hrunning)
  obtain ⟨hready, -⟩ := ready_attemptTick hold (hsafe hrunning)
  have hlt := h.cursor_lt
  have hle := hold.base_le
  have hlast : (w.attemptTick c a).lastId < w.rows.next := by
    rcases lastId_attemptTick c w a with heq | ⟨s, hs, heq⟩
    · omega
    · have hnext := w.rows.lt_next s hs
      omega
  refine ⟨?_, fun base hbase => ?_, fun hnone => ?_⟩
  · show (w.attemptTick c a).redis.cursorId < w.rows.next
    rcases hready.cursor with hcursor | ⟨s, hs, hcursor⟩
    · omega
    · have hmem := mem_samplesAfter_of_mem_fetch hs
      have hnext := w.rows.lt_next s (mem_samplesAfter.mp hmem).1
      omega
  · rw [nextAfter, hrunning, if_pos rfl] at hbase
    exact Option.some.inj hbase ▸ hready
  · rw [nextAfter, hrunning, if_pos rfl] at hnone
    contradiction

theorem kept_tick (h : Sound c w) (hrunning : w.running = true)
    (hsafe : SafeEvent c w (.tick a)) :
    Kept c w { w with task := w.attemptTick c a } :=
  (ready_attemptTick (h.ready w.task.lastId (if_pos hrunning)) (hsafe hrunning)).2

end Tick

/-! ## Runs -/

section Run

variable {e : Event} {es : List Event}

theorem sound_init (c : Settings) : Sound c {} where
  cursor_lt := Nat.zero_lt_one
  ready base hbase := by contradiction
  cold _ := ⟨fun _ _ e he => absurd he List.not_mem_nil, fun _ _ hc => absurd rfl hc⟩

theorem sound_step (h : Sound c w) (hsafe : SafeEvent c w e) : Sound c (step c w e) := by
  cases e with
  | arrive row => exact sound_arrive h
  | stop => exact sound_stop h
  | start failsAfter =>
    rw [step_start]
    split
    · exact h
    · next hstopped => exact sound_startOn h (Bool.eq_false_iff.mpr hstopped)
  | tick a =>
    rw [step_tick]
    split
    · next hrunning => exact sound_tick h hrunning hsafe
    · exact h

theorem kept_step (h : Sound c w) (hsafe : SafeEvent c w e) : Kept c w (step c w e) := by
  cases e with
  | arrive row => exact kept_arrive h
  | stop => exact .refl c w
  | start failsAfter =>
    rw [step_start]
    split
    · exact .refl c w
    · next hstopped => exact kept_startOn h (Bool.eq_false_iff.mpr hstopped)
  | tick a =>
    rw [step_tick]
    split
    · next hrunning => exact kept_tick h hrunning hsafe
    · exact .refl c w

theorem sound_run (h : Sound c w) (hsafe : AllSteps (step c) (SafeEvent c) w es) :
    Sound c (run (step c) w es) :=
  run_invariant_of_allSteps (fun _ _ => sound_step) h hsafe

theorem kept_run (h : Sound c w) (hsafe : AllSteps (step c) (SafeEvent c) w es) :
    Kept c w (run (step c) w es) := by
  have hstep : ∀ u e, (Sound c u ∧ Kept c w u) → SafeEvent c u e →
      Sound c (step c u e) ∧ Kept c w (step c u e) :=
    fun u e hu he => ⟨sound_step hu.1 he, hu.2.trans (kept_step hu.1 he)⟩
  exact (run_invariant_of_allSteps hstep ⟨h, .refl c w⟩ hsafe).2

end Run

/-! ## The frozen candles of a run -/

/-- The statistics of the one are those of some of the values of the
other. -/
def Extends (candle candle' : Candle) : Prop :=
  ∃ values values', values.Subperm values' ∧
    computeBoxStats values = some candle.stats ∧
    computeBoxStats values' = some candle'.stats

/-- Each frozen candle is that of the samples of its bucket that the cursor
has passed and that are not held, and no later candle of the bucket is that
of fewer samples. -/
structure CandlesKept (c : Settings) (es : List Event) : Prop where
  integrity : ∀ pre post, es = pre ++ post → (run (step c) {} pre).BetweenTicks →
    FrozenIntegrity ((run (step c) {} pre).samples c) (run (step c) {} pre).task.redis
  kept : ∀ pre mid post, es = pre ++ mid ++ post → (run (step c) {} pre).BetweenTicks →
    ∀ unit bkey candle, (run (step c) {} pre).task.redis.frozen unit bkey = some candle →
      ∃ candle', (run (step c) {} (pre ++ mid)).task.redis.frozen unit bkey = some candle' ∧
        Extends candle candle'

theorem Sound.integrity (h : Sound c w) (hbetween : w.BetweenTicks) :
    FrozenIntegrity (w.samples c) w.task.redis := by
  obtain ⟨base, hbase⟩ := Option.ne_none_iff_exists'.mp hbetween
  exact (h.ready base hbase).balanced.integrity

theorem betweenTicks_of_cursorId (h : 0 < w.task.redis.cursorId) : w.BetweenTicks := by
  unfold BetweenTicks nextAfter
  split
  · exact Option.some_ne_none _
  · intro hnone
    rw [Redis.cursorId, hnone] at h
    contradiction

theorem extends_of_kept {w' : Station} (h : Sound c w) (hbetween : w.BetweenTicks)
    (h' : Sound c w') (hkept : Kept c w w') {unit : BucketUnit} {bkey : BucketKey}
    {candle : Candle} (hc : w.task.redis.frozen unit bkey = some candle) :
    ∃ candle', w'.task.redis.frozen unit bkey = some candle' ∧ Extends candle candle' := by
  obtain ⟨values, hperm, hstats⟩ := h.integrity hbetween unit bkey candle hc
  obtain ⟨hc', hsub⟩ := hkept unit bkey (by rw [hc]; exact Option.some_ne_none _)
  obtain ⟨candle', hc'⟩ := Option.ne_none_iff_exists'.mp hc'
  have hne : settled (w.samples c) w.task.redis unit bkey ≠ [] := by
    intro hnil
    rw [hnil] at hperm
    exact ne_nil_of_computeBoxStats hstats hperm.eq_nil
  obtain ⟨s, hs⟩ := List.exists_mem_of_ne_nil _ hne
  obtain ⟨hmem, hle, -⟩ := mem_settled.mp (hsub s hs)
  have hpos := pos_of_mem_samples hmem
  have hbetween' := betweenTicks_of_cursorId (w := w') (by omega)
  obtain ⟨values', hperm', hstats'⟩ := h'.integrity hbetween' unit bkey candle' hc'
  refine ⟨candle', hc', values, values', ?_, hstats, hstats'⟩
  have hnodup : (settled (w.samples c) w.task.redis unit bkey).Nodup :=
    (nodup_samplesAfter c.toSource w.rows.toTable 0).of_map.filter _
  obtain ⟨part, hpart, hsublist⟩ := List.subperm_of_subset hnodup hsub
  have hvalues : (part.map SampleRow.value).Subperm values' :=
    hperm'.subperm_left.mpr (hsublist.map SampleRow.value).subperm
  have hmap := hpart.map SampleRow.value
  exact hperm.subperm_right.mpr (hmap.subperm_right.mp hvalues)

/-! ## Two runs -/

/-- A sample of the first days of June arrives. -/
def arriveJune (day hour : Nat) (value : Rat) : Event :=
  .arrive
    { id := 0
      stationId := "s-1"
      measurementType := "dust"
      value := value
      sampledAt := { year := 2026, month := 6, day := day, hour := hour } }

/-- A tick, all of it at one time. -/
def tickEvent (now : Rat) (failsAfter : Option Nat) : Event :=
  .tick { clock := fun _ _ => now, dueAt := now, failsAfter := failsAfter }

/-- Two samples of the first of June and one of the second, at which a tick
fails.  The next process freezes the first of June. -/
def firstDay : List Event :=
  [.start none, arriveJune 1 10 4, arriveJune 1 11 2, tickEvent 0 none,
    arriveJune 2 0 3, tickEvent 60 (some 5), .stop, .start none, tickEvent 61 none,
    tickEvent 120 none]

/-- A sample of the first of June that comes late, and one of the second. -/
def lateSample : List Event :=
  [arriveJune 1 12 7, arriveJune 2 1 3, tickEvent 180 none, tickEvent 240 none]

/-- In a run of safe ticks, whatever fails and however often the process
is restarted. -/
theorem candlesKept_run (c : Settings) (es : List Event)
    (h : AllSteps (step c) (SafeEvent c) {} es) : CandlesKept c es where
  integrity pre post hes := by
    rw [hes] at h
    exact (sound_run (sound_init c) (allSteps_append.mp h).1).integrity
  kept pre mid post hes hbetween unit bkey candle hc := by
    rw [hes] at h
    obtain ⟨hpre, hmid⟩ := allSteps_append.mp (allSteps_append.mp h).1
    have hsound := sound_run (sound_init c) hpre
    rw [run_append]
    exact extends_of_kept hsound hbetween (sound_run hsound hmid) (kept_run hsound hmid) hc

/-- The run in which the first of June is frozen, by the second process. -/
theorem candlesKept_firstDay :
    (run (step dustSettings) {} firstDay).task.redis.frozen .day [2026, 6, 1] ≠ none ∧
      CandlesKept dustSettings firstDay :=
  ⟨by decide +kernel, candlesKept_run dustSettings firstDay (by decide +kernel)⟩

/-- The candle of the first of June is that of two samples, and then that
of the late one alone. -/
theorem not_candlesKept_lateSample :
    ((run (step dustSettings) {} firstDay).task.redis.frozen .day [2026, 6, 1]).map
        (fun candle => candle.stats.count) = some 2 ∧
      ((run (step dustSettings) {} (firstDay ++ lateSample)).task.redis.frozen .day
        [2026, 6, 1]).map (fun candle => candle.stats.count) = some 1 ∧
      ¬ CandlesKept dustSettings (firstDay ++ lateSample) := by
  have hfirst : ((run (step dustSettings) {} firstDay).task.redis.frozen .day
      [2026, 6, 1]).map (fun candle => candle.stats.count) = some 2 := by decide +kernel
  have hlate : ((run (step dustSettings) {} (firstDay ++ lateSample)).task.redis.frozen .day
      [2026, 6, 1]).map (fun candle => candle.stats.count) = some 1 := by decide +kernel
  refine ⟨hfirst, hlate, fun h => ?_⟩
  obtain ⟨candle, hc, hcount⟩ := Option.map_eq_some_iff.mp hfirst
  have hbetween : (run (step dustSettings) {} firstDay).BetweenTicks := by
    unfold BetweenTicks
    decide +kernel
  obtain ⟨candle', hc', values, values', hsub, hstats, hstats'⟩ :=
    h.kept firstDay lateSample [] (by simp) hbetween .day [2026, 6, 1] candle hc
  rw [hc'] at hlate
  have hcount' := Option.some.inj hlate
  dsimp only at hcount hcount'
  have hle := hsub.length_le
  rw [← count_of_computeBoxStats hstats, ← count_of_computeBoxStats hstats'] at hle
  omega

end Station

end DustMonitoring.Dumopro
