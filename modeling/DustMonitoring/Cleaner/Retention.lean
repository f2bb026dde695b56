import DustMonitoring.Cleaner.Purge

/-!
# The retention sweep

`run_all` deletes what is older than its limit: the normal videos, the
anomaly videos, the sensor samples, the ingestion log.  The videos go in
batches, and a batch is what a query without an order returns, so any rows
that match.

The age of a video is taken from `captured_at`, which may be `NULL`, and a
comparison with `NULL` is not true.

* `swept_iff`: the sweep leaves nothing behind that is older than its limit
  exactly if every such video has a `captured_at` and the batches are not
  empty.
-/

namespace DustMonitoring.Cleaner

open DustMonitoring.Lib DustMonitoring.Schema

/-! ## The tables -/

/-- One row of `video`. -/
structure Video where
  videoId : String
  filePath : Path
  capturedAt : Option Timestamp
  createdAt : Timestamp
  isValid : Bool := true
  isExcluded : Bool := false
deriving DecidableEq, Repr

/-- One row of `sensor_sample`. -/
structure SensorSample where
  id : Nat
  sampledAt : Timestamp
deriving DecidableEq, Repr

/-- One row of `ingestion_log`. -/
structure IngestionLog where
  id : Nat
  createdAt : Timestamp
deriving DecidableEq, Repr

/-- The tables that `run_all` reads and writes. -/
structure RetentionDb where
  video : Table Video.videoId
  sensorSample : Table SensorSample.id
  ingestionLog : Table IngestionLog.id

/-- `NOW() - make_interval(days => $1)`. -/
def cutoff (now : Timestamp) (days : Int) : Timestamp := now - days * 86400000000

/-- The predicate of `_NORMAL_VIDEO_SELECT_SQL`. -/
def isNormal (v : Video) : Bool := v.isValid && !v.isExcluded

/-- The predicate of `_ANOMALY_VIDEO_SELECT_SQL`. -/
def isAnomaly (v : Video) : Bool := !v.isValid || v.isExcluded

/-- `captured_at < ..`, which `NULL` does not satisfy. -/
def capturedBefore (limit : Timestamp) (v : Video) : Bool :=
  match v.capturedAt with
  | none => false
  | some t => decide (t < limit)

/-! ## The sweep -/

/-- What a statement of the sweep meets: the time in the database, the order
in which a query finds its rows, and the files that cannot be unlinked. -/
structure SweepReading where
  now : Timestamp
  rank : Video → Nat := fun _ => 0
  refuses : Path → Bool := fun _ => false

/-- Where `run_all` is. -/
inductive Stage where
  | normal
  | anomaly
  | sensor
  | log
  | done
  | raised
deriving DecidableEq, Repr

/-- The counts that `run_all` returns. -/
structure SweepCounts where
  normal : Nat := 0
  anomaly : Nat := 0
  sensorSample : Nat := 0
  ingestionLog : Nat := 0
deriving DecidableEq, Repr

/-- A call of `run_all`. -/
structure SweepState (β : Type*) where
  db : RetentionDb
  files : Files Path β
  stage : Stage := .normal
  counts : SweepCounts := {}

/-- The select statements of the videos. -/
def selectVideos (cls : Video → Bool) (days : Int) (batch : Nat) (r : SweepReading)
    (db : RetentionDb) : List Video :=
  (orderBy r.rank (db.video.rows.filter fun v =>
    cls v && capturedBefore (cutoff r.now days) v)).take batch

/-- The files after the loop that unlinks the files of a batch.  A file that
cannot be unlinked is only logged. -/
def unlinkAll {β : Type*} (refuses : Path → Bool) (rows : List Video)
    (files : Files Path β) : Files Path β :=
  rows.foldl (fun fs v => (fs.unlink v.filePath (refuses v.filePath)).2) files

/-- `_VIDEO_DELETE_SQL`. -/
def deleteVideos (rows : List Video) (db : RetentionDb) : RetentionDb :=
  { db with video := db.video.deleteWhere fun v => (rows.map Video.videoId).contains v.videoId }

variable {β : Type*}

/-- One round of `_purge_videos`, and the stage after it. -/
def purgeVideos (cls : Video → Bool) (days batch : Int) (current next : Stage)
    (count : Nat → SweepCounts → SweepCounts) (s : SweepState β) (r : SweepReading) :
    SweepState β :=
  -- PostgreSQL refuses a negative LIMIT.
  if batch < 0 then { s with stage := .raised }
  else
    match selectVideos cls days batch.toNat r s.db with
    | [] => { s with stage := next }
    | v :: vs =>
      { db := deleteVideos (v :: vs) s.db
        files := unlinkAll r.refuses (v :: vs) s.files
        stage := if ((v :: vs).length : Int) < batch then next else current
        counts := count (v :: vs).length s.counts }

/-- One statement of `run_all`, with the files of its batch. -/
def runAll (settings : CleanerSettings) (s : SweepState β) (r : SweepReading) :
    SweepState β :=
  match s.stage with
  | .normal =>
    purgeVideos isNormal settings.videoNormalDays settings.batchSize .normal .anomaly
      (fun n c => { c with normal := c.normal + n }) s r
  | .anomaly =>
    purgeVideos isAnomaly settings.videoAnomalyDays settings.batchSize .anomaly .sensor
      (fun n c => { c with anomaly := c.anomaly + n }) s r
  | .sensor =>
    let old := fun x : SensorSample => decide (x.sampledAt < cutoff r.now settings.sensorDays)
    { s with
      db := { s.db with sensorSample := s.db.sensorSample.deleteWhere old }
      stage := .log
      counts := { s.counts with sensorSample := (s.db.sensorSample.rows.filter old).length } }
  | .log =>
    let old := fun x : IngestionLog =>
      decide (x.createdAt < cutoff r.now settings.ingestionLogDays)
    { s with
      db := { s.db with ingestionLog := s.db.ingestionLog.deleteWhere old }
      stage := .done
      counts := { s.counts with ingestionLog := (s.db.ingestionLog.rows.filter old).length } }
  | .done | .raised => s

namespace RetentionSweep

/-! ## The classes and the limits -/

/-- Every video is in exactly one of the two classes. -/
theorem isAnomaly_eq (v : Video) : isAnomaly v = !isNormal v := by
  simp [isAnomaly, isNormal, Bool.not_and]

/-- The days that a video is kept. -/
def videoDays (settings : CleanerSettings) (v : Video) : Int :=
  if isNormal v then settings.videoNormalDays else settings.videoAnomalyDays

/-- The video is older than the limit of its class, by its `created_at` if
it has no `captured_at`. -/
def Overdue (settings : CleanerSettings) (t : Timestamp) (v : Video) : Prop :=
  v.capturedAt.getD v.createdAt < cutoff t (videoDays settings v)

instance (settings : CleanerSettings) (t : Timestamp) (v : Video) :
    Decidable (Overdue settings t v) :=
  inferInstanceAs (Decidable (_ < _))

theorem cutoff_le {t now : Timestamp} (days : Int) (h : t ≤ now) :
    cutoff t days ≤ cutoff now days :=
  Int.sub_le_sub_right h _

theorem capturedBefore_iff {limit : Timestamp} {v : Video} :
    capturedBefore limit v = true ↔ ∃ c, v.capturedAt = some c ∧ c < limit := by
  unfold capturedBefore
  cases v.capturedAt with
  | none => simp
  | some c => simp

/-! ## One batch -/

theorem mem_selectVideos {cls : Video → Bool} {days : Int} {batch : Nat}
    {r : SweepReading} {db : RetentionDb} {v : Video}
    (h : v ∈ selectVideos cls days batch r db) :
    v ∈ db.video.rows ∧ cls v = true ∧ capturedBefore (cutoff r.now days) v = true := by
  have hmem := List.mem_filter.mp (mem_orderBy.mp (List.mem_of_mem_take h))
  simpa [Bool.and_eq_true] using hmem

/-- A batch that is not full has every row that matches. -/
theorem mem_selectVideos_of_lt {cls : Video → Bool} {days : Int} {batch : Nat}
    {r : SweepReading} {db : RetentionDb} {v : Video}
    (hlt : (selectVideos cls days batch r db).length < batch)
    (hv : v ∈ db.video.rows) (hcls : cls v = true)
    (hold : capturedBefore (cutoff r.now days) v = true) :
    v ∈ selectVideos cls days batch r db := by
  unfold selectVideos at hlt ⊢
  rw [List.length_take] at hlt
  rw [List.take_of_length_le (by omega), mem_orderBy, List.mem_filter]
  exact ⟨hv, by simp [hcls, hold]⟩

theorem mem_deleteVideos {rows : List Video} {db : RetentionDb} {v : Video} :
    v ∈ (deleteVideos rows db).video.rows ↔
      v ∈ db.video.rows ∧ v.videoId ∉ rows.map Video.videoId := by
  unfold deleteVideos
  rw [Table.mem_deleteWhere]
  simp

/-- The rows of the batch are all that a batch deletes. -/
theorem mem_deleteVideos_of_not_mem {rows : List Video} {db : RetentionDb}
    (hrows : ∀ x ∈ rows, x ∈ db.video.rows) {v : Video} (hv : v ∈ db.video.rows)
    (hnot : v ∉ rows) : v ∈ (deleteVideos rows db).video.rows := by
  refine mem_deleteVideos.mpr ⟨hv, fun hid => ?_⟩
  obtain ⟨x, hx, heq⟩ := List.mem_map.mp hid
  exact hnot (db.video.eq_of_key_eq (hrows x hx) hv heq ▸ hx)

/-- What a round does: the query is refused, or it finds nothing, or its
rows are deleted. -/
theorem purgeVideos_cases (cls : Video → Bool) (days batch : Int)
    (current next : Stage) (count : Nat → SweepCounts → SweepCounts)
    (s : SweepState β) (r : SweepReading) :
    (batch < 0 ∧ purgeVideos cls days batch current next count s r =
        { s with stage := .raised }) ∨
    (0 ≤ batch ∧ selectVideos cls days batch.toNat r s.db = [] ∧
      purgeVideos cls days batch current next count s r = { s with stage := next }) ∨
    (0 ≤ batch ∧ ∃ rows, rows ≠ [] ∧ rows = selectVideos cls days batch.toNat r s.db ∧
      purgeVideos cls days batch current next count s r =
        { db := deleteVideos rows s.db
          files := unlinkAll r.refuses rows s.files
          stage := if (rows.length : Int) < batch then next else current
          counts := count rows.length s.counts }) := by
  unfold purgeVideos
  split
  · next hneg => exact Or.inl ⟨hneg, rfl⟩
  · next hbatch =>
    have hbatch' : 0 ≤ batch := not_lt.mp hbatch
    split
    · next hnil => exact Or.inr (Or.inl ⟨hbatch', hnil, rfl⟩)
    · next v vs hrows =>
      exact Or.inr (Or.inr ⟨hbatch', v :: vs, List.cons_ne_nil v vs, hrows.symm, rfl⟩)

/-- The rows that a round leaves are rows that it found. -/
theorem mem_of_mem_purgeVideos {cls : Video → Bool} {days batch : Int}
    {current next : Stage} {count : Nat → SweepCounts → SweepCounts}
    {s : SweepState β} {r : SweepReading} {v : Video}
    (h : v ∈ (purgeVideos cls days batch current next count s r).db.video.rows) :
    v ∈ s.db.video.rows := by
  rcases purgeVideos_cases cls days batch current next count s r with
    ⟨-, heq⟩ | ⟨-, -, heq⟩ | ⟨-, rows, -, -, heq⟩
  · rwa [heq] at h
  · rwa [heq] at h
  · rw [heq] at h
    exact (mem_deleteVideos.mp h).1

/-- When the class is left no row of it matches. -/
theorem not_capturedBefore_of_next {cls : Video → Bool} {days batch : Int}
    {current next : Stage} {count : Nat → SweepCounts → SweepCounts}
    {s : SweepState β} {r : SweepReading} {v : Video} (hpos : 0 < batch)
    (hstage : (purgeVideos cls days batch current next count s r).stage ≠ current)
    (hv : v ∈ (purgeVideos cls days batch current next count s r).db.video.rows)
    (hcls : cls v = true) : capturedBefore (cutoff r.now days) v = false := by
  by_contra hold
  rw [Bool.not_eq_false] at hold
  have hmem := mem_of_mem_purgeVideos hv
  rcases purgeVideos_cases cls days batch current next count s r with
    ⟨hneg, -⟩ | ⟨-, hnil, -⟩ | ⟨-, rows, -, hrows, heq⟩
  · omega
  · have hlt : (selectVideos cls days batch.toNat r s.db).length < batch.toNat := by
      rw [hnil, List.length_nil]
      omega
    exact absurd (hnil ▸ mem_selectVideos_of_lt hlt hmem hcls hold) List.not_mem_nil
  · rw [heq] at hstage hv
    have hlt : (rows.length : Int) < batch := by
      by_contra hfull
      exact hstage (if_neg hfull)
    have hin : v ∈ rows := by
      rw [hrows] at hlt ⊢
      exact mem_selectVideos_of_lt (by omega) hmem hcls hold
    exact (mem_deleteVideos.mp hv).2 (List.mem_map_of_mem hin)

/-! ## The statements of a sweep -/

/-- How far the sweep has come. -/
def Stage.rank : Stage → Nat
  | .normal | .raised => 0
  | .anomaly => 1
  | .sensor => 2
  | .log => 3
  | .done => 4

/-- A call of `run_all` after the statements. -/
def sweep (settings : CleanerSettings) (db : RetentionDb) (files : Files Path β)
    (rs : List SweepReading) : SweepState β :=
  run (runAll settings) { db := db, files := files } rs

section Sweep

variable {settings : CleanerSettings} {db : RetentionDb} {files : Files Path β}
  {t : Timestamp}

/-- The tables after the stages that are over: nothing in them that has a
time is older than its limit at `t`. -/
structure Clean (settings : CleanerSettings) (t : Timestamp) (s : SweepState β) :
    Prop where
  normal : 1 ≤ Stage.rank s.stage → 0 < settings.batchSize →
    ∀ v ∈ s.db.video.rows, isNormal v = true →
      capturedBefore (cutoff t settings.videoNormalDays) v = false
  anomaly : 2 ≤ Stage.rank s.stage → 0 < settings.batchSize →
    ∀ v ∈ s.db.video.rows, isAnomaly v = true →
      capturedBefore (cutoff t settings.videoAnomalyDays) v = false
  sensor : 3 ≤ Stage.rank s.stage → ∀ x ∈ s.db.sensorSample.rows,
    ¬ x.sampledAt < cutoff t settings.sensorDays
  log : 4 ≤ Stage.rank s.stage → ∀ x ∈ s.db.ingestionLog.rows,
    ¬ x.createdAt < cutoff t settings.ingestionLogDays

/-- What is not older than a limit was not older before either. -/
theorem capturedBefore_mono {now : Timestamp} {days : Int} {v : Video} (ht : t ≤ now)
    (h : capturedBefore (cutoff now days) v = false) :
    capturedBefore (cutoff t days) v = false := by
  by_contra hold
  rw [Bool.not_eq_false] at hold
  obtain ⟨c, hc, hlt⟩ := capturedBefore_iff.mp hold
  have hbefore := capturedBefore_iff.mpr ⟨c, hc, lt_of_lt_of_le hlt (cutoff_le days ht)⟩
  rw [h] at hbefore
  contradiction

/-- A round leads to the next class at most. -/
theorem rank_purgeVideos_le {current next : Stage} (h : Stage.rank current ≤ Stage.rank next)
    (cls : Video → Bool) (days batch : Int) (count : Nat → SweepCounts → SweepCounts)
    (s : SweepState β) (r : SweepReading) :
    Stage.rank (purgeVideos cls days batch current next count s r).stage ≤ Stage.rank next := by
  rcases purgeVideos_cases cls days batch current next count s r with
    ⟨-, heq⟩ | ⟨-, -, heq⟩ | ⟨-, rows, -, -, heq⟩
  · rw [heq]
    exact Nat.zero_le _
  · rw [heq]
  · rw [heq]
    dsimp only
    split
    · exact le_rfl
    · exact h

theorem clean_runAll {s : SweepState β} {r : SweepReading} (ht : t ≤ r.now)
    (h : Clean settings t s) : Clean settings t (runAll settings s r) := by
  cases hstage : s.stage with
  | normal =>
    simp only [runAll, hstage]
    have hle := rank_purgeVideos_le (by decide : Stage.rank .normal ≤ Stage.rank .anomaly)
      isNormal settings.videoNormalDays settings.batchSize
      (fun n c => { c with normal := c.normal + n }) s r
    have hone : Stage.rank .anomaly = 1 := rfl
    refine ⟨fun hrank hpos v hv hcls => ?_, fun hrank => ?_, fun hrank => ?_, fun hrank => ?_⟩
    · refine capturedBefore_mono ht (not_capturedBefore_of_next hpos ?_ hv hcls)
      intro heq
      rw [heq] at hrank
      exact absurd hrank (by decide)
    all_goals
      exfalso
      omega
  | anomaly =>
    simp only [runAll, hstage]
    have hle := rank_purgeVideos_le (by decide : Stage.rank .anomaly ≤ Stage.rank .sensor)
      isAnomaly settings.videoAnomalyDays settings.batchSize
      (fun n c => { c with anomaly := c.anomaly + n }) s r
    have htwo : Stage.rank .sensor = 2 := rfl
    refine ⟨fun hrank hpos v hv hcls => ?_, fun hrank hpos v hv hcls => ?_,
      fun hrank => ?_, fun hrank => ?_⟩
    · exact h.normal (by rw [hstage]; decide) hpos v (mem_of_mem_purgeVideos hv) hcls
    · refine capturedBefore_mono ht (not_capturedBefore_of_next hpos ?_ hv hcls)
      intro heq
      rw [heq] at hrank
      exact absurd hrank (by decide)
    all_goals
      exfalso
      omega
  | sensor =>
    simp only [runAll, hstage]
    refine ⟨fun _ => h.normal (by rw [hstage]; decide),
      fun _ => h.anomaly (by rw [hstage]; decide), fun _ x hx => ?_,
      fun hrank => absurd hrank (by simp [Stage.rank])⟩
    have hkept := (Table.mem_deleteWhere.mp hx).2
    rw [decide_eq_false_iff_not] at hkept
    exact fun hlt => hkept (lt_of_lt_of_le hlt (cutoff_le _ ht))
  | log =>
    simp only [runAll, hstage]
    refine ⟨fun _ => h.normal (by rw [hstage]; decide),
      fun _ => h.anomaly (by rw [hstage]; decide),
      fun _ => h.sensor (by rw [hstage]; decide), fun _ x hx => ?_⟩
    have hkept := (Table.mem_deleteWhere.mp hx).2
    rw [decide_eq_false_iff_not] at hkept
    exact fun hlt => hkept (lt_of_lt_of_le hlt (cutoff_le _ ht))
  | done => simpa only [runAll, hstage] using h
  | raised => simpa only [runAll, hstage] using h

theorem clean_sweep {rs : List SweepReading} (ht : ∀ r ∈ rs, t ≤ r.now) :
    Clean settings t (sweep settings db files rs) := by
  refine run_invariant_of_mem (fun s r hr h => clean_runAll (ht r hr) h) ?_
  exact ⟨fun h => absurd h (by simp [Stage.rank]), fun h => absurd h (by simp [Stage.rank]),
    fun h => absurd h (by simp [Stage.rank]), fun h => absurd h (by simp [Stage.rank])⟩

/-- The sweep only deletes videos. -/
theorem mem_of_mem_sweep {rs : List SweepReading} {v : Video}
    (h : v ∈ (sweep settings db files rs).db.video.rows) : v ∈ db.video.rows := by
  have hstep : ∀ (s : SweepState β) (r : SweepReading),
      (∀ x ∈ s.db.video.rows, x ∈ db.video.rows) →
      ∀ x ∈ (runAll settings s r).db.video.rows, x ∈ db.video.rows := by
    intro s r hs x hx
    unfold runAll at hx
    split at hx
    · exact hs x (mem_of_mem_purgeVideos hx)
    · exact hs x (mem_of_mem_purgeVideos hx)
    all_goals exact hs x hx
  exact run_invariant hstep (fun x hx => hx) rs v h

/-! ## The end of the sweep -/

/-- The call has ended. -/
def Ended (s : SweepState β) : Prop := s.stage = .done ∨ s.stage = .raised

instance (s : SweepState β) : Decidable (Ended s) :=
  inferInstanceAs (Decidable (_ ∨ _))

/-- The statements that the call can still make. -/
def remaining (s : SweepState β) : Nat :=
  match s.stage with
  | .done | .raised => 0
  | stage => 4 - Stage.rank stage + s.db.video.rows.length

theorem length_deleteVideos_lt {rows : List Video} {db : RetentionDb} (hne : rows ≠ [])
    (hrows : ∀ v ∈ rows, v ∈ db.video.rows) :
    (deleteVideos rows db).video.rows.length < db.video.rows.length := by
  obtain ⟨v, hv⟩ := List.exists_mem_of_ne_nil rows hne
  apply List.length_filter_lt_length_iff_exists.mpr
  exact ⟨v, hrows v hv, by simpa using ⟨v, hv, rfl⟩⟩

theorem remaining_purgeVideos {cls : Video → Bool} {days batch : Int}
    {current next : Stage} {count : Nat → SweepCounts → SweepCounts}
    {s : SweepState β} {r : SweepReading} (hcurrent : s.stage = current)
    (hrank : Stage.rank next = Stage.rank current + 1) (hlt : Stage.rank current < 2)
    (hrunning : ¬ Ended s) :
    remaining (purgeVideos cls days batch current next count s r) < remaining s := by
  have hbefore : remaining s = 4 - Stage.rank current + s.db.video.rows.length := by
    unfold remaining
    split
    · next h => exact absurd (Or.inl h) hrunning
    · next h => exact absurd (Or.inr h) hrunning
    · rw [hcurrent]
  have hafter : ∀ s' : SweepState β, remaining s' ≤
      4 - Stage.rank s'.stage + s'.db.video.rows.length := by
    intro s'
    unfold remaining
    split
    · omega
    · omega
    · exact le_rfl
  rcases purgeVideos_cases cls days batch current next count s r with
    ⟨-, heq⟩ | ⟨-, -, heq⟩ | ⟨-, rows, hne, hrows, heq⟩
  · rw [heq, hbefore]
    show 0 < _
    omega
  · rw [heq, hbefore]
    refine lt_of_le_of_lt (hafter _) ?_
    simp only
    omega
  · rw [heq, hbefore]
    refine lt_of_le_of_lt (hafter _) ?_
    have hdelete : (deleteVideos rows s.db).video.rows.length < s.db.video.rows.length :=
      length_deleteVideos_lt hne fun v hv => (mem_selectVideos (hrows ▸ hv)).1
    dsimp only
    split <;> omega

/-- Every statement of a sweep that has not ended leaves fewer of them. -/
theorem remaining_lt (s : SweepState β) (r : SweepReading) (h : ¬ Ended s) :
    remaining (runAll settings s r) < remaining s := by
  cases hstage : s.stage with
  | normal =>
    simp only [runAll, hstage]
    exact remaining_purgeVideos hstage rfl (by decide) h
  | anomaly =>
    simp only [runAll, hstage]
    exact remaining_purgeVideos hstage rfl (by decide) h
  | sensor =>
    simp only [runAll, hstage, remaining, Stage.rank]
    omega
  | log =>
    simp only [runAll, hstage, remaining, Stage.rank]
    omega
  | done => exact absurd (Or.inl hstage) h
  | raised => exact absurd (Or.inr hstage) h

theorem runAll_of_ended {s : SweepState β} (r : SweepReading) (h : Ended s) :
    runAll settings s r = s := by
  rcases h with hstage | hstage
  · simp only [runAll, hstage]
  · simp only [runAll, hstage]

/-- Whatever the statements meet, the sweep ends. -/
theorem ended_sweep {rs : List SweepReading} (hlen : 4 + db.video.rows.length < rs.length) :
    Ended (sweep settings db files rs) := by
  have hkeep : ∀ (s : SweepState β) r, Ended s → Ended (runAll settings s r) :=
    fun s r hs => by rwa [runAll_of_ended r hs]
  exact run_finishes remaining hkeep remaining_lt hlen

/-! ## Completeness -/

/-- What the retention promises for the tables and the time `t` at which
`run_all` is called: it ends, and when it returns nothing is left that was
older than its limit at `t`. -/
structure Swept (settings : CleanerSettings) (db : RetentionDb) (files : Files Path β)
    (t : Timestamp) : Prop where
  ends : ∃ n, ∀ rs, n < rs.length → Ended (sweep settings db files rs)
  classes : ∀ v : Video, isNormal v ≠ isAnomaly v
  video : ∀ rs, (∀ r ∈ rs, t ≤ r.now) → (sweep settings db files rs).stage = .done →
    ∀ v ∈ (sweep settings db files rs).db.video.rows, ¬ Overdue settings t v
  sensor : ∀ rs, (∀ r ∈ rs, t ≤ r.now) → (sweep settings db files rs).stage = .done →
    ∀ x ∈ (sweep settings db files rs).db.sensorSample.rows,
      ¬ x.sampledAt < cutoff t settings.sensorDays
  log : ∀ rs, (∀ r ∈ rs, t ≤ r.now) → (sweep settings db files rs).stage = .done →
    ∀ x ∈ (sweep settings db files rs).db.ingestionLog.rows,
      ¬ x.createdAt < cutoff t settings.ingestionLogDays

/-- The database refuses the query of a negative batch. -/
theorem not_done_of_neg {rs : List SweepReading} (hbatch : settings.batchSize < 0) :
    (sweep settings db files rs).stage ≠ .done := by
  have hstep : ∀ (s : SweepState β) (r : SweepReading), s.stage ∈ [.normal, .raised] →
      (runAll settings s r).stage ∈ [Stage.normal, .raised] := by
    intro s r hs
    rcases List.mem_cons.mp hs with hstage | hstage
    · simp only [runAll, hstage, purgeVideos, if_pos hbatch]
      simp
    · obtain hstage := List.mem_singleton.mp hstage
      simp [runAll, hstage]
  have hstage := run_invariant hstep (s := { db := db, files := files }) (by simp) rs
  intro hdone
  rw [sweep] at hdone
  rw [hdone] at hstage
  exact absurd hstage (by decide)

/-- A batch that is not refused ends in a return. -/
theorem done_of_ended {rs : List SweepReading} (hbatch : 0 ≤ settings.batchSize)
    (h : Ended (sweep settings db files rs)) :
    (sweep settings db files rs).stage = .done := by
  have hstep : ∀ (s : SweepState β) (r : SweepReading), s.stage ≠ .raised →
      (runAll settings s r).stage ≠ .raised := by
    intro s r hs
    have hround : ∀ (cls : Video → Bool) (days : Int) (current next : Stage)
        (count : Nat → SweepCounts → SweepCounts), current ≠ .raised → next ≠ .raised →
        (purgeVideos cls days settings.batchSize current next count s r).stage ≠ .raised := by
      intro cls days current next count hcurrent hnext
      rcases purgeVideos_cases cls days settings.batchSize current next count s r with
        ⟨hneg, -⟩ | ⟨-, -, heq⟩ | ⟨-, rows, -, -, heq⟩
      · omega
      · rwa [heq]
      · rw [heq]
        dsimp only
        split
        · exact hnext
        · exact hcurrent
    cases hstage : s.stage with
    | normal => simpa only [runAll, hstage] using hround _ _ _ _ _ (by simp) (by simp)
    | anomaly => simpa only [runAll, hstage] using hround _ _ _ _ _ (by simp) (by simp)
    | sensor => simp [runAll, hstage]
    | log => simp [runAll, hstage]
    | done => simp [runAll, hstage]
    | raised => exact absurd hstage hs
  have hrunning : (sweep settings db files rs).stage ≠ .raised :=
    run_invariant hstep (s := { db := db, files := files }) (by simp) rs
  exact h.resolve_right hrunning

/-- A video without a `captured_at` is never selected, and with batches of
no row none is. -/
theorem mem_sweep_of_unselected {rs : List SweepReading} {v : Video}
    (hv : v ∈ db.video.rows) (h : v.capturedAt = none ∨ settings.batchSize = 0) :
    v ∈ (sweep settings db files rs).db.video.rows := by
  have hstep : ∀ (s : SweepState β) (r : SweepReading), v ∈ s.db.video.rows →
      v ∈ (runAll settings s r).db.video.rows := by
    intro s r hs
    have hround : ∀ (cls : Video → Bool) (days : Int) (current next : Stage)
        (count : Nat → SweepCounts → SweepCounts),
        v ∈ (purgeVideos cls days settings.batchSize current next count s r).db.video.rows := by
      intro cls days current next count
      rcases purgeVideos_cases cls days settings.batchSize current next count s r with
        ⟨-, heq⟩ | ⟨-, -, heq⟩ | ⟨-, rows, hne, hrows, heq⟩
      · rwa [heq]
      · rwa [heq]
      · rw [heq]
        refine mem_deleteVideos_of_not_mem
          (fun x hx => (mem_selectVideos (hrows ▸ hx)).1) hs fun hin => ?_
        rcases h with hnull | hzero
        · obtain ⟨c, hc, -⟩ := capturedBefore_iff.mp (mem_selectVideos (hrows ▸ hin)).2.2
          rw [hnull] at hc
          contradiction
        · rw [hrows, selectVideos, hzero] at hin
          exact absurd hin List.not_mem_nil
    unfold runAll
    split
    · exact hround _ _ _ _ _
    · exact hround _ _ _ _ _
    all_goals exact hs
  exact run_invariant hstep hv rs

/-- The sweep leaves nothing overdue exactly if every overdue video has a
`captured_at`, and there is none if the batches are of no row. -/
theorem swept_iff :
    Swept settings db files t ↔
      settings.batchSize < 0 ∨ ∀ v ∈ db.video.rows, Overdue settings t v →
        v.capturedAt ≠ none ∧ settings.batchSize ≠ 0 := by
  constructor
  · intro h
    by_contra hnot
    push Not at hnot
    obtain ⟨hbatch, v, hv, hoverdue, hunselected⟩ := hnot
    let rs := List.replicate (5 + db.video.rows.length) ({ now := t } : SweepReading)
    have hended : Ended (sweep settings db files rs) := ended_sweep (by simp [rs])
    have hmem : v ∈ (sweep settings db files rs).db.video.rows := by
      refine mem_sweep_of_unselected hv ?_
      by_cases hnull : v.capturedAt = none
      · exact Or.inl hnull
      · exact Or.inr (hunselected hnull)
    refine h.video rs (fun r hr => ?_) (done_of_ended hbatch hended) v hmem hoverdue
    rw [List.eq_of_mem_replicate hr]
  · intro hcond
    refine ⟨⟨_, fun rs hlen => ended_sweep hlen⟩, fun v => ?_, fun rs ht hdone v hv hoverdue => ?_,
      fun rs ht hdone => ?_, fun rs ht hdone => ?_⟩
    · rw [isAnomaly_eq]
      cases isNormal v <;> simp
    · rcases hcond with hneg | hcond
      · exact absurd hdone (not_done_of_neg hneg)
      · obtain ⟨hcaptured, hne⟩ := hcond v (mem_of_mem_sweep hv) hoverdue
        obtain ⟨c, hc⟩ := Option.ne_none_iff_exists'.mp hcaptured
        have hclean : Clean settings t (sweep settings db files rs) := clean_sweep ht
        have hpos : 0 < settings.batchSize := by
          by_contra hneg
          exact not_done_of_neg (by omega) hdone
        simp only [Overdue, hc, Option.getD_some, videoDays] at hoverdue
        cases hcls : isNormal v with
        | true =>
          have hnot := hclean.normal (by rw [hdone]; decide) hpos v hv hcls
          rw [if_pos hcls] at hoverdue
          rw [capturedBefore_iff.mpr ⟨c, hc, hoverdue⟩] at hnot
          contradiction
        | false =>
          have hnot := hclean.anomaly (by rw [hdone]; decide) hpos v hv
            (by rw [isAnomaly_eq, hcls]; rfl)
          rw [if_neg (by simp [hcls])] at hoverdue
          rw [capturedBefore_iff.mpr ⟨c, hc, hoverdue⟩] at hnot
          contradiction
    · exact (clean_sweep ht).sensor (by rw [hdone]; decide)
    · exact (clean_sweep ht).log (by rw [hdone]; decide)

/-- A normal video that was stored without a `captured_at`. -/
def uncaptured : RetentionDb :=
  { video := Table.empty.insert
      { videoId := "11111111-1111-4111-8111-111111111111"
        filePath := "/data/storage/videos/a.bin"
        capturedAt := none
        createdAt := 0 }
    sensorSample := Table.empty
    ingestionLog := Table.empty }

/-- A year after it was stored, and with the default settings, the sweep
returns and the video is still there. -/
theorem not_swept_uncaptured :
    ¬ Swept {} uncaptured (fun _ => some ()) (365 * 86400000000) := by
  intro h
  have hleft := h.video (List.replicate 4 { now := 365 * 86400000000 })
    (by decide) (by decide)
    { videoId := "11111111-1111-4111-8111-111111111111"
      filePath := "/data/storage/videos/a.bin"
      capturedAt := none
      createdAt := 0 } (by decide)
  revert hleft
  decide

end Sweep

end RetentionSweep

end DustMonitoring.Cleaner
