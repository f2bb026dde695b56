import Mathlib.Algebra.Order.Ring.Int
import DustMonitoring.Cleaner.Config
import DustMonitoring.Lib.Run

/-!
# The nightly sweep

`_run_service` waits for the next HH:MM in Korea, which it computes from the
current time at the head of every turn.  A turn that wakes up reads the
clock once more to see whether the instant has come, then purges the frames,
then calls `run_all` if the instant had come or the button was pressed.

* `neverSkipped_iff`: no instant goes by without a `run_all` exactly if none
  falls between the second reading of the clock and the next turn, unless
  the turn calls `run_all` after it.

Times are microseconds since the epoch, in UTC.
-/

namespace DustMonitoring.Cleaner

open DustMonitoring.Lib

namespace Schedule

/-- The local time in Seoul, which is nine hours ahead. -/
def kst (t : Int) : Int := t + 32400000000

/-- The time of day of the settings, which `datetime.replace` checks. -/
def timeOfDay (settings : CleanerSettings) : Option Int :=
  if 0 ≤ settings.runAtHourKst ∧ settings.runAtHourKst < 24 ∧
      0 ≤ settings.runAtMinuteKst ∧ settings.runAtMinuteKst < 60 then
    some ((settings.runAtHourKst * 60 + settings.runAtMinuteKst) * 60000000)
  else none

/-- The next local time with the time of day. -/
def nextKst (offset nowKst : Int) : Int :=
  let candidate := nowKst - nowKst % 86400000000 + offset
  if candidate ≤ nowKst then candidate + 86400000000 else candidate

/-- `_next_scheduled_run`. -/
def nextScheduledRun (settings : CleanerSettings) (now : Int) : Option Int :=
  (timeOfDay settings).map fun offset => nextKst offset (kst now) - 32400000000

/-- The timeout of the wait, in microseconds. -/
def delay (settings : CleanerSettings) (now next : Int) : Int :=
  min (settings.diskCheckIntervalSec * 1000000) (max 1000000 (next - now))

/-- One turn of the loop: how long it waits until it reads the clock again,
whether the button was pressed by then, and how long the purge, `run_all`
and the way to the next turn take.  A wait ends at its timeout or at a
`NOTIFY`, and the process goes on when it is scheduled. -/
structure Turn where
  wait : Nat
  manual : Bool := false
  purge : Nat := 0
  runAll : Nat := 0
  rest : Nat := 0
deriving DecidableEq, Repr

/-- The reading of the clock that decides about the sweep. -/
def checkedAt (now : Int) (turn : Turn) : Int := now + turn.wait

/-- The end of the purge, where `run_all` is called. -/
def purgedAt (now : Int) (turn : Turn) : Int := checkedAt now turn + turn.purge

/-- `schedule_due or manual_triggered`. -/
def runsAll (settings : CleanerSettings) (now : Int) (turn : Turn) : Bool :=
  match nextScheduledRun settings now with
  | none => false
  | some next => decide (next ≤ checkedAt now turn) || turn.manual

/-- One turn of `_run_service`, from the time at its head to the time at
the head of the next one.  A time of day that does not exist raises, and the
service is over. -/
def runService (settings : CleanerSettings) (now : Int) (turn : Turn) : Int :=
  match nextScheduledRun settings now with
  | none => now
  | some _ =>
    purgedAt now turn + (if runsAll settings now turn then turn.runAll else 0) + turn.rest

/-- The time at which the turn calls `run_all`. -/
def calls (settings : CleanerSettings) (now : Int) (turn : Turn) : List Int :=
  if runsAll settings now turn then [purgedAt now turn] else []

/-- The clock in Seoul shows the configured time of day. -/
def IsInstant (settings : CleanerSettings) (t : Int) : Prop :=
  timeOfDay settings = some (kst t % 86400000000)

instance (settings : CleanerSettings) (t : Int) : Decidable (IsInstant settings t) :=
  inferInstanceAs (Decidable (_ = _))

/-! ## The instants -/

variable {settings : CleanerSettings}

theorem timeOfDay_bounds {offset : Int} (h : timeOfDay settings = some offset) :
    0 ≤ offset ∧ offset < 86400000000 := by
  unfold timeOfDay at h
  split at h
  · next hvalid =>
    obtain rfl := Option.some.inj h
    omega
  · contradiction

theorem nextKst_spec {offset : Int} (h : 0 ≤ offset ∧ offset < 86400000000)
    (nowKst : Int) :
    nowKst < nextKst offset nowKst ∧ nextKst offset nowKst % 86400000000 = offset ∧
      ∀ t, t % 86400000000 = offset → nowKst < t → nextKst offset nowKst ≤ t := by
  unfold nextKst
  dsimp only
  split
  · exact ⟨by omega, by omega, fun t ht hlt => by omega⟩
  · exact ⟨by omega, by omega, fun t ht hlt => by omega⟩

/-- `_next_scheduled_run` is the first instant after the current time. -/
theorem nextScheduledRun_spec {now next : Int}
    (h : nextScheduledRun settings now = some next) :
    now < next ∧ IsInstant settings next ∧
      ∀ t, IsInstant settings t → now < t → next ≤ t := by
  obtain ⟨offset, hoffset, hnext⟩ := Option.map_eq_some_iff.mp h
  obtain ⟨hafter, hmod, hfirst⟩ := nextKst_spec (timeOfDay_bounds hoffset) (kst now)
  unfold kst at hafter hmod hfirst hnext
  refine ⟨by omega, ?_, ?_⟩
  · have hlocal : kst next % 86400000000 = offset := by
      unfold kst
      rw [← hnext, Int.sub_add_cancel, hmod]
    rw [IsInstant, hlocal, hoffset]
  · intro t ht hlt
    have hlocal : kst t % 86400000000 = offset := Option.some.inj (ht.symm.trans hoffset)
    have hle := hfirst (kst t) hlocal (by unfold kst; omega)
    unfold kst at hle
    omega

/-- Where there is an instant the service knows the next one. -/
theorem exists_nextScheduledRun {t : Int} (h : IsInstant settings t) (now : Int) :
    ∃ next, nextScheduledRun settings now = some next := by
  unfold nextScheduledRun
  rw [show timeOfDay settings = _ from h]
  exact ⟨_, rfl⟩

/-! ## The turns -/

theorem runService_of_some {now next : Int} (turn : Turn)
    (h : nextScheduledRun settings now = some next) :
    runService settings now turn =
      purgedAt now turn + (if runsAll settings now turn then turn.runAll else 0) +
        turn.rest := by
  simp only [runService, h]

/-- A turn does not go back in time. -/
theorem le_runService (now : Int) (turn : Turn) : now ≤ runService settings now turn := by
  unfold runService
  split
  · exact le_rfl
  · unfold purgedAt checkedAt
    split <;> omega

/-- A turn calls `run_all` before the next turn. -/
theorem le_of_mem_calls {now s : Int} {turn : Turn} (h : s ∈ calls settings now turn) :
    s = purgedAt now turn ∧ s ≤ runService settings now turn := by
  unfold calls at h
  split at h
  · next hruns =>
    obtain rfl := List.mem_singleton.mp h
    refine ⟨rfl, ?_⟩
    unfold runsAll at hruns
    split at hruns
    · contradiction
    · next next hnext =>
      rw [runService_of_some turn hnext]
      split <;> omega
  · exact absurd h List.not_mem_nil

theorem le_run (now : Int) (turns : List Turn) : now ≤ run (runService settings) now turns :=
  run_rel (R := fun s t : Int => s ≤ t) (fun _ => le_rfl) (fun _ _ _ h h' => le_trans h h')
    (fun s turn => le_runService s turn) now turns

theorem le_run_of_mem_outputs {now s : Int} {turns : List Turn}
    (h : s ∈ outputs (runService settings) (calls settings) now turns) :
    s ≤ run (runService settings) now turns := by
  induction turns generalizing now with
  | nil => exact absurd h List.not_mem_nil
  | cons turn turns ih =>
    rcases List.mem_append.mp h with h | h
    · exact le_trans (le_of_mem_calls h).2 (le_run _ turns)
    · exact ih h

/-- An instant up to the second reading of the clock is due. -/
theorem runsAll_of_le {now t : Int} {turn : Turn} (ht : IsInstant settings t)
    (hnow : now < t) (hle : t ≤ checkedAt now turn) : runsAll settings now turn = true := by
  obtain ⟨next, hnext⟩ := exists_nextScheduledRun ht now
  have hfirst := (nextScheduledRun_spec hnext).2.2 t ht hnow
  simp only [runsAll, hnext, Bool.or_eq_true, decide_eq_true_eq]
  exact Or.inl (le_trans hfirst hle)

/-! ## Whole nights -/

/-- Whenever the service comes to wait for an instant, it has called
`run_all` after every earlier instant that it has seen go by. -/
def NeverSkipped (settings : CleanerSettings) (start : Int) (turns : List Turn) : Prop :=
  ∀ pre, pre <+: turns → ∀ next,
    nextScheduledRun settings (run (runService settings) start pre) = some next →
    ∀ t, IsInstant settings t → start < t → t < next →
      ∃ s ∈ outputs (runService settings) (calls settings) start pre, t ≤ s

/-- No instant falls between the reading of the clock that decides and the
next turn, unless the turn calls `run_all` after it. -/
def Keeps (settings : CleanerSettings) (now : Int) (turn : Turn) : Prop :=
  ∀ t, IsInstant settings t → checkedAt now turn < t → t ≤ runService settings now turn →
    runsAll settings now turn = true ∧ t ≤ purgedAt now turn

/-- The turns that keep an instant call `run_all` after it. -/
theorem exists_call_of_keeps {now t : Int} {turns : List Turn}
    (hkeeps : AllSteps (runService settings) (Keeps settings) now turns)
    (ht : IsInstant settings t) (hnow : now < t)
    (hle : t ≤ run (runService settings) now turns) :
    ∃ s ∈ outputs (runService settings) (calls settings) now turns, t ≤ s := by
  induction turns generalizing now with
  | nil => exact absurd hle (not_le.mpr hnow)
  | cons turn turns ih =>
    obtain ⟨hturn, hturns⟩ := hkeeps
    by_cases hin : t ≤ runService settings now turn
    · -- the instant goes by in this turn
      have hcalled : runsAll settings now turn = true ∧ t ≤ purgedAt now turn := by
        by_cases hcheck : t ≤ checkedAt now turn
        · refine ⟨runsAll_of_le ht hnow hcheck, le_trans hcheck ?_⟩
          unfold purgedAt
          omega
        · exact hturn t ht (not_le.mp hcheck) hin
      refine ⟨purgedAt now turn, List.mem_append_left _ ?_, hcalled.2⟩
      simp [calls, hcalled.1]
    · obtain ⟨s, hs, hts⟩ := ih hturns (not_le.mp hin) hle
      exact ⟨s, List.mem_append_right _ hs, hts⟩

/-- The nightly sweep is never skipped exactly if every turn keeps the
instants that go by after its check. -/
theorem neverSkipped_iff (start : Int) (turns : List Turn) :
    NeverSkipped settings start turns ↔
      AllSteps (runService settings) (Keeps settings) start turns := by
  constructor
  · intro h
    rw [allSteps_iff]
    intro pre turn post hturns t ht hcheck hle
    have hprefix : pre ++ [turn] <+: turns := ⟨post, by simp [hturns]⟩
    have hnow : run (runService settings) start pre < t := by
      unfold checkedAt at hcheck
      omega
    obtain ⟨next, hnext⟩ := exists_nextScheduledRun ht
      (run (runService settings) start (pre ++ [turn]))
    have hlt : t < next := by
      have hafter := (nextScheduledRun_spec hnext).1
      rw [run_concat] at hafter
      exact lt_of_le_of_lt hle hafter
    obtain ⟨s, hs, hts⟩ := h _ hprefix next hnext t ht
      (lt_of_le_of_lt (le_run start pre) hnow) hlt
    rw [outputs_append] at hs
    rcases List.mem_append.mp hs with hs | hs
    · -- a call of an earlier turn was before the instant
      have hbefore := le_run_of_mem_outputs hs
      omega
    · rw [outputs, outputs, List.append_nil] at hs
      have hcalls := hs
      rw [(le_of_mem_calls hs).1] at hts
      unfold calls at hcalls
      split at hcalls
      · next hruns => exact ⟨hruns, hts⟩
      · exact absurd hcalls List.not_mem_nil
  · intro h pre hprefix next hnext t ht hstart hlt
    obtain ⟨post, rfl⟩ := hprefix
    refine exists_call_of_keeps (allSteps_append.mp h).1 ht hstart ?_
    by_contra hafter
    have hfirst := (nextScheduledRun_spec hnext).2.2 t ht (not_le.mp hafter)
    omega

/-- Five minutes and a second before three o'clock in Seoul the service
starts to wait.  The disk check at the end of the wait finds the disk full,
and the purge takes ten seconds. -/
def slowPurge : List Turn := [{ wait := 300000000, purge := 10000000 }]

/-- The wait is the timeout that the service sets, and after the purge it
waits for the next night. -/
theorem not_neverSkipped_slowPurge :
    nextScheduledRun {} 1780250099000000 = some 1780250400000000 ∧
      delay {} 1780250099000000 1780250400000000 = 300000000 ∧
      ¬ NeverSkipped {} 1780250099000000 slowPurge := by
  refine ⟨by decide, by decide, fun h => ?_⟩
  obtain ⟨s, hs, -⟩ := h slowPurge (List.prefix_rfl) 1780336800000000 (by decide)
    1780250400000000 (by decide) (by decide) (by decide)
  have hnone : outputs (runService {}) (calls {}) 1780250099000000 slowPurge = [] := by
    decide
  rw [hnone] at hs
  exact absurd hs List.not_mem_nil

end Schedule

end DustMonitoring.Cleaner
