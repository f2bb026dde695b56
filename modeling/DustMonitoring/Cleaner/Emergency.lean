import DustMonitoring.Cleaner.Purge

/-!
# The emergency purge

`emergency_purge` reads the usage of the disk, and from a threshold on it
runs the purge loop until the usage is down at the target.  What it does
holds at every point between two of its steps, so also where it is
suspended or where the process dies:

* `emergencyPurge_safe`: a frame loses its row only when its file is gone,
  what survives and is older than a deleted frame was refused by the
  operating system, and the measurements stay as they are.
* `stopped_run`: nothing changes after a reading at or below the target.
-/

namespace DustMonitoring.Cleaner

open DustMonitoring.Lib DustMonitoring.Schema

/-- What `emergency_purge` returns. -/
inductive EmergencyResult where
  | statFailed
  | notActivated (currentPct : Percent) (threshold : Int)
  | activated (deleted unlinkFailures iterations : Nat) (finalPct : Option Percent)
      (threshold target : Int)
deriving DecidableEq, Repr

/-- Where `emergency_purge` is. -/
inductive Phase where
  | start
  | loop
  | final
  | returned (result : EmergencyResult)
  | raised
deriving DecidableEq, Repr

/-- A call of `emergency_purge`. -/
structure EmergencyState (β : Type*) where
  phase : Phase := .start
  loop : PurgeState β

/-- The loop of `emergency_purge`: a round is started as long as the usage
of the disk can be read and is above the target. -/
def emergencyLoop (settings : CleanerSettings) : PurgeLoop where
  maxIterations := 1000
  batchSize := settings.batchSize
  proceed := fun r =>
    match r.diskPercent with
    | none => false
    | some pct => !decide (pct ≤ settings.emergencyTargetPercent)

variable {β : Type*}

/-- One step of `emergency_purge`. -/
def emergencyPurge (settings : CleanerSettings) (s : EmergencyState β) (r : Reading) :
    EmergencyState β :=
  match s.phase with
  | .start =>
    match r.diskPercent with
    | none => { s with phase := .returned .statFailed }
    | some pct =>
      if pct < settings.emergencyPurgeAtPercent then
        { s with
          phase := .returned (.notActivated pct settings.emergencyPurgeAtPercent) }
      else { s with phase := .loop }
  | .loop =>
    let l := (emergencyLoop settings).step s.loop r
    match l.pc with
    | .done => { phase := .final, loop := l }
    | .raised => { phase := .raised, loop := l }
    | _ => { s with loop := l }
  | .final =>
    { s with
      phase := .returned (.activated s.loop.deleted s.loop.unlinkFailures
        s.loop.iterations r.diskPercent settings.emergencyPurgeAtPercent
        settings.emergencyTargetPercent) }
  | .returned _ | .raised => s

namespace EmergencyPurge

open PurgeLoop

/-- A call of `emergency_purge` on the database and the disk. -/
def start (gw : GatewayDb) (files : Files Path β) : EmergencyState β :=
  { loop := { gw := gw, files := files } }

/-- The frames that are in `cctv_frame`. -/
def frames (s : EmergencyState β) : List CctvFrame := s.loop.gw.cctvFrame.rows

/-- The frames whose `os.unlink` was refused, over the steps of the call. -/
def note (s : EmergencyState β) (r : Reading) (refused : List Nat) : List Nat :=
  if s.phase = .loop then noteRefused s.loop r refused else refused

variable {settings : CleanerSettings}

/-- A step of the call is a step of the loop, or it leaves the database and
the disk alone. -/
theorem emergencyPurge_loop (settings : CleanerSettings) (s : EmergencyState β) (r : Reading) :
    (s.phase = .loop ∧
      (emergencyPurge settings s r).loop = (emergencyLoop settings).step s.loop r) ∨
    (s.phase ≠ .loop ∧ (emergencyPurge settings s r).loop = s.loop) := by
  unfold emergencyPurge
  cases hphase : s.phase with
  | start =>
    refine Or.inr ⟨by simp, ?_⟩
    dsimp only
    split
    · rfl
    · split <;> rfl
  | loop =>
    refine Or.inl ⟨rfl, ?_⟩
    dsimp only
    split <;> rfl
  | final => exact Or.inr ⟨by simp, rfl⟩
  | returned result => exact Or.inr ⟨by simp, rfl⟩
  | raised => exact Or.inr ⟨by simp, rfl⟩

theorem safe_step {gw : GatewayDb} {p : EmergencyState β × List Nat}
    (h : Safe gw p.1.loop p.2) (r : Reading) :
    Safe gw (withHistory (emergencyPurge settings) note p r).1.loop
      (withHistory (emergencyPurge settings) note p r).2 := by
  rcases emergencyPurge_loop settings p.1 r with ⟨hphase, hloop⟩ | ⟨hphase, hloop⟩
  · simp only [withHistory, note, if_pos hphase, hloop]
    exact (step_move _ p.1.loop r).safe h
  · simp only [withHistory, note, if_neg hphase, hloop]
    exact h

theorem safe_run (settings : CleanerSettings) (gw : GatewayDb) (files : Files Path β)
    (rs : List Reading) :
    Safe gw (run (withHistory (emergencyPurge settings) note) (start gw files, []) rs).1.loop
      (run (withHistory (emergencyPurge settings) note) (start gw files, []) rs).2 := by
  have hstep : ∀ (p : EmergencyState β × List Nat) (r : Reading), Safe gw p.1.loop p.2 →
      Safe gw (withHistory (emergencyPurge settings) note p r).1.loop
        (withHistory (emergencyPurge settings) note p r).2 :=
    fun p r h => safe_step h r
  exact run_invariant hstep (safe_start gw files) rs

/-! ## The end of the call -/

/-- The call has ended. -/
def Ended (s : EmergencyState β) : Prop :=
  s.phase = .raised ∨ ∃ result, s.phase = .returned result

/-- The phases that the call has in front of it. -/
def Phase.rank : Phase → Nat
  | .start => 3
  | .loop => 2
  | .final => 1
  | .returned _ | .raised => 0

/-- The steps that the call can still make. -/
def remaining (settings : CleanerSettings) (s : EmergencyState β) : Nat :=
  Phase.rank s.phase + (emergencyLoop settings).work s.loop

/-- Every step of a call that has not ended leaves less of it. -/
theorem remaining_lt (s : EmergencyState β) (r : Reading) (h : ¬ Ended s) :
    remaining settings (emergencyPurge settings s r) < remaining settings s := by
  cases hphase : s.phase with
  | start =>
    have hloop : (emergencyPurge settings s r).loop = s.loop := by
      simpa [hphase] using emergencyPurge_loop settings s r
    have hrank : Phase.rank (emergencyPurge settings s r).phase ≤ 2 := by
      simp only [emergencyPurge, hphase]
      cases r.diskPercent with
      | none => simp [Phase.rank]
      | some pct =>
        dsimp only
        split <;> simp [Phase.rank]
    simp only [remaining, hloop, hphase, Phase.rank] at hrank ⊢
    omega
  | loop =>
    by_cases hpc : s.loop.pc.finished = true
    · -- the loop was left already: the call goes on with its next phase
      have hstay := (emergencyLoop settings).step_of_finished r hpc
      have hrank : Phase.rank (emergencyPurge settings s r).phase ≤ 1 := by
        simp only [emergencyPurge, hphase, hstay]
        cases hs : s.loop.pc <;> simp [hs, Pc.finished] at hpc <;> simp [Phase.rank]
      have hloop : (emergencyPurge settings s r).loop = s.loop := by
        simpa [hphase, hstay] using emergencyPurge_loop settings s r
      simp only [remaining, hloop, hphase, Phase.rank] at hrank ⊢
      omega
    · have hlt := (step_move (emergencyLoop settings) s.loop r).work_lt hpc
      have hrank : Phase.rank (emergencyPurge settings s r).phase ≤ 2 := by
        simp only [emergencyPurge, hphase]
        split <;> simp [Phase.rank]
      have hloop : (emergencyPurge settings s r).loop =
          (emergencyLoop settings).step s.loop r := by
        simpa [hphase] using emergencyPurge_loop settings s r
      simp only [remaining, hloop, hphase, Phase.rank] at hrank ⊢
      omega
  | final => simp [emergencyPurge, hphase, remaining, Phase.rank]
  | returned result => exact absurd (Or.inr ⟨result, hphase⟩) h
  | raised => exact absurd (Or.inl hphase) h

/-- After its end the call does nothing. -/
theorem emergencyPurge_of_ended {s : EmergencyState β} (r : Reading) (h : Ended s) :
    emergencyPurge settings s r = s := by
  rcases h with hphase | ⟨result, hphase⟩
  · simp only [emergencyPurge, hphase]
  · simp only [emergencyPurge, hphase]

theorem ended_run {s : EmergencyState β} {rs : List Reading}
    (hlen : remaining settings s < rs.length) :
    Ended (run (emergencyPurge settings) s rs) := by
  refine run_finishes (remaining settings) (fun t r ht => ?_)
    (fun t r ht => remaining_lt t r ht) hlen
  rwa [emergencyPurge_of_ended r ht]

theorem paced_run (gw : GatewayDb) (files : Files Path β) (rs : List Reading) :
    Paced gw.cctvFrame.rows.length
      (run (emergencyPurge settings) (start gw files) rs).loop := by
  have hstep : ∀ (s : EmergencyState β) (r : Reading),
      Paced gw.cctvFrame.rows.length s.loop →
      Paced gw.cctvFrame.rows.length (emergencyPurge settings s r).loop := by
    intro s r h
    rcases emergencyPurge_loop settings s r with ⟨-, hloop⟩ | ⟨-, hloop⟩
    · rw [hloop]
      exact (step_move _ s.loop r).paced h
    · rwa [hloop]
  exact run_invariant hstep (paced_start gw files) rs

/-! ## A reading at or below the target -/

/-- The call has done its last deletion. -/
def Stopped (s : EmergencyState β) : Prop := s.phase ≠ .start ∧ s.phase ≠ .loop

theorem stopped_run {s : EmergencyState β} (h : Stopped s) (rs : List Reading) :
    (run (emergencyPurge settings) s rs).loop = s.loop := by
  have hstep : ∀ (t : EmergencyState β) (r : Reading), Stopped t ∧ t.loop = s.loop →
      Stopped (emergencyPurge settings t r) ∧
        (emergencyPurge settings t r).loop = s.loop := by
    intro t r ht
    obtain ⟨⟨hstart, hloop⟩, heq⟩ := ht
    cases hphase : t.phase with
    | start => exact absurd hphase hstart
    | loop => exact absurd hphase hloop
    | final => simp [emergencyPurge, Stopped, hphase, heq]
    | returned result => simp [emergencyPurge, Stopped, hphase, heq]
    | raised => simp [emergencyPurge, Stopped, hphase, heq]
  exact (run_invariant hstep ⟨h, rfl⟩ rs).2

/-- The head of a round that reads a usage at or below the target is the
last one. -/
theorem stopped_of_target {s : EmergencyState β} {r : Reading} {pct : Percent}
    (hphase : s.phase = .loop) (hpc : s.loop.pc = .head)
    (hr : r.diskPercent = some pct) (htarget : pct ≤ settings.emergencyTargetPercent) :
    Stopped (emergencyPurge settings s r) ∧
      (emergencyPurge settings s r).loop.gw = s.loop.gw ∧
      (emergencyPurge settings s r).loop.files = s.loop.files := by
  have hstop : (emergencyLoop settings).proceed r = false := by
    simp [emergencyLoop, hr, htarget]
  have hdone : (emergencyLoop settings).step s.loop r =
      { s.loop with pc := .done, iterations := s.loop.iterations + 1 } ∨
      (emergencyLoop settings).step s.loop r = { s.loop with pc := .done } := by
    simp only [step, hpc, hstop]
    split
    · exact Or.inl rfl
    · exact Or.inr rfl
  rcases hdone with hdone | hdone
  · simp [emergencyPurge, hphase, hdone, Stopped]
  · simp [emergencyPurge, hphase, hdone, Stopped]

/-! ## Safety -/

/-- What holds of a call in the state `s` that it has come to, when it
started on the database `gw` and `refused` are the frames whose `os.unlink`
was refused so far. -/
structure SafeCall (settings : CleanerSettings) (gw : GatewayDb)
    (s : EmergencyState β) (refused : List Nat) : Prop where
  /-- No file on disk has lost its row. -/
  noOrphan : ∀ f ∈ gw.cctvFrame.rows, f ∉ frames s → s.loop.files f.filePath = none
  /-- The file of a row that the next step deletes is gone already. -/
  fileFirst : ∀ r, ∀ f ∈ frames s, f ∉ frames (emergencyPurge settings s r) →
    s.loop.files f.filePath = none
  /-- What is older than a deleted frame and still there was refused. -/
  oldestFirst : ∀ d ∈ gw.cctvFrame.rows, d ∉ frames s → ∀ f ∈ frames s,
    f.receivedAt < d.receivedAt → f.id ∈ refused
  /-- Nothing is deleted after a loop check at or below the target. -/
  stops : s.phase = .loop → s.loop.pc = .head →
    ∀ (r : Reading) (pct : Percent), r.diskPercent = some pct →
      pct ≤ settings.emergencyTargetPercent →
      ∀ rs, (run (emergencyPurge settings) s (r :: rs)).loop.gw = s.loop.gw ∧
        (run (emergencyPurge settings) s (r :: rs)).loop.files = s.loop.files
  /-- Every round but the last deletes a frame. -/
  rounds : s.loop.iterations ≤ gw.cctvFrame.rows.length + 1
  /-- The measurements are not touched. -/
  dust : s.loop.gw.dustInspection = gw.dustInspection

theorem safeCall_of_safe {gw : GatewayDb} {s : EmergencyState β} {refused : List Nat}
    (h : Safe gw s.loop refused) (hpaced : Paced gw.cctvFrame.rows.length s.loop) :
    SafeCall settings gw s refused where
  noOrphan := h.gone
  fileFirst := by
    intro r f hf hnot
    rcases emergencyPurge_loop settings s r with ⟨-, hloop⟩ | ⟨-, hloop⟩
    · rw [frames, hloop] at hnot
      exact (step_move _ s.loop r).file_gone h hf hnot
    · rw [frames, hloop] at hnot
      exact absurd hf hnot
  oldestFirst := h.older
  stops := by
    intro hphase hpc r pct hr htarget rs
    obtain ⟨hstopped, hgw, hfiles⟩ := stopped_of_target hphase hpc hr htarget
    rw [run_cons, stopped_run hstopped rs]
    exact ⟨hgw, hfiles⟩
  rounds := by
    have hrounds := hpaced.rounds
    omega
  dust := h.dust

/-- `emergency_purge` on any tables and any disk, at any point that it comes
to with any readings of the disk and any refusals.  It comes to its end. -/
theorem emergencyPurge_safe (settings : CleanerSettings) (gw : GatewayDb)
    (files : Files Path β) (rs : List Reading) :
    SafeCall settings gw (run (emergencyPurge settings) (start gw files) rs)
        (run (withHistory (emergencyPurge settings) note) (start gw files, []) rs).2 ∧
      (1000 * (gw.cctvFrame.rows.length + 3) + 4 < rs.length →
        Ended (run (emergencyPurge settings) (start gw files) rs)) := by
  constructor
  · have hsafe := safe_run settings gw files rs
    rw [fst_run_withHistory] at hsafe
    exact safeCall_of_safe hsafe (paced_run gw files rs)
  · intro hlen
    apply ended_run
    have hwork : (emergencyLoop settings).work (start gw files).loop =
        1000 * (gw.cctvFrame.rows.length + 3) + 1 := by
      simp only [work, start, emergencyLoop, Nat.sub_zero]
    have hrank : Phase.rank (start gw files).phase = 3 := rfl
    unfold remaining
    omega

end EmergencyPurge

end DustMonitoring.Cleaner
