import DustMonitoring.Dumopro.LiveValues
import DustMonitoring.Ingestion.WaypointGate

/-!
# From a dust frame to the ticks of a station

A frame that `LoasDustHandler` accepts becomes a row of `dust_inspection`, the
row a row of `v_loas_sensor_sample`, and that a sample of the station task of
its target.  `float` reads `nan` and `inf` as it reads a number, and nothing on
the way looks at the value.

* `harmless_iff`: accepted frames have finite values and stall no station
  exactly when their texts are decimals in the range of the doubles.
* `not_harmless_nan`: one frame with `nan` ends the task of its station.
-/

namespace DustMonitoring.Dumopro.LiveValues

open DustMonitoring.Lib DustMonitoring.Loas.Dust
open DustMonitoring.Ingestion.WaypointGate (asciiReader shouldCollect)

/-! ## Rows -/

/-- A dust frame, with the id and the time of the row that its insert made. -/
structure StoredFrame where
  id : Nat
  receivedAt : DateTime
  body : List UInt8

/-- The row of the view `v_loas_sensor_sample` for a frame, if it has one. -/
def sample? (x : XmlReader) (loasStationId : Int → String) (f : StoredFrame) : Option Sample :=
  match parseDustInspection x f.body with
  | .error _ => none
  | .ok p =>
    if shouldCollect p then
      match p.waypointId, p.targetId, p.dustData with
      | some _, some targetId, some value =>
        some
          { id := f.id
            stationId := loasStationId targetId
            measurementType := "dust_concentration"
            value
            sampledAt := f.receivedAt }
      | _, _, _ => none
    else none

/-- The rows of the view. -/
def storedSamples (x : XmlReader) (loasStationId : Int → String) (frames : List StoredFrame) :
    List Sample :=
  frames.filterMap (sample? x loasStationId)

variable {x : XmlReader} {loasStationId : Int → String}

/-- The value of a sample is the measured value of its frame. -/
theorem value_of_sample? {f : StoredFrame} {s : Sample} (h : sample? x loasStationId f = some s) :
    ∃ p, parseDustInspection x f.body = .ok p ∧ p.dustData = some s.value := by
  unfold sample? at h
  cases hp : parseDustInspection x f.body with
  | error exc =>
    rw [hp] at h
    contradiction
  | ok p =>
    simp only [hp] at h
    split at h
    · split at h
      · next hvalue =>
        obtain rfl := Option.some.inj h
        exact ⟨p, rfl, hvalue⟩
      · contradiction
    · contradiction

/-! ## Harmless frames -/

variable {σ : Type}

/-- The tick goes through, and its cursor is past the samples it has read. -/
structure GoesPast (c : Settings) (box : List Score → σ) (t : LiveTask σ) (τ : Tick) : Prop where
  through : ∃ t', LiveTask.tick c box t τ = .ok t'
  past : ∀ t', LiveTask.tick c box t τ = .ok t' → ∀ s ∈ t.fetched c τ, s.id ≤ t'.lastId
  stored : ∀ t', LiveTask.tick c box t τ = .ok t' → t.fetched c τ ≠ [] →
    ∃ sampledAt, t'.cursor = some (t'.lastId, sampledAt)

/-- The values of the accepted frames are finite or missing, and no tick fails
and no task ends because of them. -/
structure Harmless (x : XmlReader) (loasStationId : Int → String) (c : Settings)
    (failureCap : Nat) (box : List Score → σ) (frames : List StoredFrame) : Prop where
  finite : ∀ f ∈ frames, ∀ p, parseDustInspection x f.body = .ok p → p.FiniteValues
  ticks : ∀ t τ, τ.samples ⊆ storedSamples x loasStationId frames → GoesPast c box t τ
  runs : ∀ (t : LiveTask σ) (ticks : List Tick), t.aborted = false →
    (∀ τ ∈ ticks, τ.samples ⊆ storedSamples x loasStationId frames) →
      (run (LiveTask.turn c failureCap box) t ticks).aborted = false

variable {c : Settings} {box : List Score → σ}

theorem mem_of_mem_fetchSamplesSince {src : Source} {samples : List Sample} {lastId limit : Nat}
    {s : Sample} (h : s ∈ fetchSamplesSince src samples lastId limit) : s ∈ samples :=
  (List.mem_filter.mp (mem_orderBy.mp (List.mem_of_mem_take h))).1

/-- The last sample of a batch has the highest id. -/
theorem le_of_getLast?_fetchSamplesSince {src : Source} {samples : List Sample}
    {lastId limit : Nat} {s last : Sample}
    (hlast : (fetchSamplesSince src samples lastId limit).getLast? = some last)
    (hs : s ∈ fetchSamplesSince src samples lastId limit) : s.id ≤ last.id := by
  have hsorted : (fetchSamplesSince src samples lastId limit).Pairwise fun a b => a.id ≤ b.id :=
    (pairwise_orderBy Sample.id _).sublist (List.take_sublist _ _)
  obtain ⟨init, heq⟩ := List.getLast?_eq_some_iff.mp hlast
  rw [heq] at hsorted hs
  rcases List.mem_append.mp hs with hs | hs
  · exact (List.pairwise_append.mp hsorted).2.2 s hs last List.mem_cons_self
  · rw [List.mem_singleton.mp hs]

/-- A tick without a NaN goes past its samples. -/
theorem goesPast_of_values {t : LiveTask σ} {τ : Tick}
    (hvalues : ∀ s ∈ t.fetched c τ, s.value ≠ .nan) : GoesPast c box t τ := by
  refine ⟨LiveTask.exists_tick_ok_iff.mpr hvalues, fun t' ht' s hs => ?_, fun t' ht' hne => ?_⟩
  · have hprogress := LiveTask.progress_of_tick_ok ht'
    cases hlast : (t.fetched c τ).getLast? with
    | none =>
      rw [List.getLast?_eq_none_iff.mp hlast] at hs
      contradiction
    | some last =>
      rw [hlast] at hprogress
      have hid : t'.lastId = last.id := congrArg Prod.fst hprogress
      rw [hid]
      exact le_of_getLast?_fetchSamplesSince hlast hs
  · have hprogress := LiveTask.progress_of_tick_ok ht'
    cases hlast : (t.fetched c τ).getLast? with
    | none => exact absurd (List.getLast?_eq_none_iff.mp hlast) hne
    | some last =>
      rw [hlast] at hprogress
      simp only [LiveTask.progress, Prod.mk.injEq] at hprogress
      exact ⟨last.sampledAt, by rw [hprogress.2.1, hprogress.1]⟩

/-- The samples of frames with finite values. -/
theorem ne_nan_of_storedSamples {frames : List StoredFrame}
    (hfinite : ∀ f ∈ frames, ∀ p, parseDustInspection x f.body = .ok p → p.FiniteValues)
    {s : Sample} (hs : s ∈ storedSamples x loasStationId frames) : s.value ≠ .nan := by
  intro hnan
  obtain ⟨f, hf, hsample⟩ := List.mem_filterMap.mp hs
  obtain ⟨p, hp, hvalue⟩ := value_of_sample? hsample
  have hd : s.value.IsFinite := hfinite f hf p hp p.dustData List.mem_cons_self _ hvalue
  rw [hnan] at hd
  exact hd

/-- The frames do no harm exactly when in every accepted one of them the texts
of the measured value and the coordinates are decimals in the range of the
doubles. -/
theorem harmless_iff (x : XmlReader) (loasStationId : Int → String) (c : Settings)
    (failureCap : Nat) (box : List Score → σ) (frames : List StoredFrame) :
    Harmless x loasStationId c failureCap box frames ↔
      ∀ f ∈ frames, ∀ p, parseDustInspection x f.body = .ok p → TextsInRange x f.body := by
  constructor
  · intro h f hf p hp
    exact (finiteValues_iff hp).mp (h.finite f hf p hp)
  · intro h
    have hfinite : ∀ f ∈ frames, ∀ p, parseDustInspection x f.body = .ok p → p.FiniteValues :=
      fun f hf p hp => (finiteValues_iff hp).mpr (h f hf p hp)
    have hvalues : ∀ (t : LiveTask σ) (τ : Tick),
        τ.samples ⊆ storedSamples x loasStationId frames →
          ∀ s ∈ t.fetched c τ, s.value ≠ .nan :=
      fun t τ hsub s hs => ne_nan_of_storedSamples hfinite (hsub (mem_of_mem_fetchSamplesSince hs))
    refine ⟨hfinite, fun t τ hsub => goesPast_of_values (hvalues t τ hsub), ?_⟩
    intro t ticks hopen hticks
    have hstep : ∀ (t : LiveTask σ), ∀ τ ∈ ticks, t.aborted = false →
        (LiveTask.turn c failureCap box t τ).aborted = false :=
      fun t τ hτ hopen => (LiveTask.turn_of_tick_ok hopen (hvalues t τ (hticks τ hτ))).1
    exact run_invariant_of_mem hstep hopen

/-! ## A frame that stalls its station -/

/-- A dust frame of target 7 at waypoint 3 with this measured value. -/
def measuredXml (value : String) : String :=
  "<ELEMENT><CMD_ID>DUST_INSPECTION_INFOR</CMD_ID><DUST_DATA>" ++ value ++
    "</DUST_DATA><TARGET_ID>7</TARGET_ID><WAYPOINT_ID>3</WAYPOINT_ID></ELEMENT>"

def measured (value : String) : Element where
  tag := "ELEMENT"
  children :=
    [("CMD_ID", some "DUST_INSPECTION_INFOR"), ("DUST_DATA", some value), ("TARGET_ID", some "7"),
      ("WAYPOINT_ID", some "3")]

/-- A reader that knows two of these texts. -/
def measuredReader : XmlReader :=
  { asciiReader with
    fromString := fun text =>
      if text = measuredXml "nan" then .ok (measured "nan")
      else if text = measuredXml "0.5" then .ok (measured "0.5")
      else .error "syntax error: line 1, column 0" }

def measuredFrame (id : Nat) (value : String) : StoredFrame where
  id
  receivedAt := { year := 2026, month := 1, day := 1 }
  body := (measuredXml value).toList.map fun c => UInt8.ofNat c.toNat

/-- A frame with `nan`, and one with a number after it. -/
def nanFrames : List StoredFrame := [measuredFrame 1 "nan", measuredFrame 2 "0.5"]

def measuredSample (id : Nat) (value : Double) : Sample where
  id
  stationId := "7"
  measurementType := "dust_concentration"
  value
  sampledAt := { year := 2026, month := 1, day := 1 }

def nanTick : Tick where
  samples := [measuredSample 1 .nan, measuredSample 2 (.finite (1 / 2))]

def station7 : Settings where
  stationId := "7"
  measurementType := "dust_concentration"

/-- The task of the station after five turns with these samples. -/
def stalledTask : LiveTask Nat :=
  run (LiveTask.turn station7 5 List.length) {} (List.replicate 5 nanTick)

/-- The first of the two samples fails all five of its turns, and it gives up
without having passed either of them. -/
theorem not_harmless_nan :
    storedSamples measuredReader toString nanFrames = nanTick.samples ∧
      stalledTask.aborted = true ∧ stalledTask.lastId = 0 ∧
      ¬ Harmless measuredReader toString station7 5 List.length nanFrames := by
  have hstored : storedSamples measuredReader toString nanFrames = nanTick.samples := by
    decide +kernel
  have hbatch : ∃ s ∈ fetchSamplesSince station7.toSource nanTick.samples 0
      station7.pollBatchLimit, s.value = .nan := by
    decide +kernel
  have hnan : ∀ τ ∈ List.replicate 5 nanTick,
      ∃ s ∈ fetchSamplesSince station7.toSource τ.samples 0 station7.pollBatchLimit,
        s.value = .nan :=
    fun τ hτ => List.eq_of_mem_replicate hτ ▸ hbatch
  have hrun : stalledTask.lastId = 0 ∧ stalledTask.cursor = none ∧
      (stalledTask.aborted = true ↔ 5 ≤ 0 + (List.replicate 5 nanTick).length) :=
    LiveTask.aborted_of_nan hnan rfl (Nat.succ_pos 4)
  obtain ⟨hid, -, habort⟩ := hrun
  have haborted := habort.mpr (by simp)
  refine ⟨hstored, haborted, hid, fun h => ?_⟩
  have hopen : stalledTask.aborted = false :=
    h.runs {} (List.replicate 5 nanTick) rfl fun τ hτ => by
      rw [List.eq_of_mem_replicate hτ, hstored]
      exact List.Subset.refl _
  exact Bool.false_ne_true (hopen.symm.trans haborted)

end DustMonitoring.Dumopro.LiveValues
