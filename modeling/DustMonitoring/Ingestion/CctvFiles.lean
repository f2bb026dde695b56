import Mathlib.Data.UInt
import DustMonitoring.Lib.Disk
import DustMonitoring.Lib.Run
import DustMonitoring.Schema.Gateway

/-!
# The files of the CCTV frames

`LoasCctvHandler.on_frame` writes the image to a file and then inserts a row
of `cctv_frame` that names it.  Two connections can be in the handler at the
same time: the file is written in a thread, and the insert is an await.

The path of a file is made of the target that the dust handler has set last
and the time in milliseconds, so two frames can have one path.  The second
one then writes over the file of the first, and if its insert fails it
removes the file.

* `consistent_of_pathsFree`: in a run in which a frame never gets a path that
  a row or another call has, and no failed insert was applied, every row
  names the file with its image, and only own files are removed.
* `exists_frame_of_read_step_ne` and `exists_frame_of_mem_rows_step`: in any
  run a step changes only files of calls at work, and inserts only their rows.
-/

namespace DustMonitoring.Ingestion.CctvFiles

open DustMonitoring.Lib DustMonitoring.Schema

/-! ## The path -/

/-- `%02d` and the like. -/
def pad (width n : Nat) : String :=
  "".pushn '0' (width - (toString n).length) ++ toString n

/-- The time in UTC+9. -/
def kst (ts : Timestamp) : DateTime :=
  let t := ts + 32400000000
  let (year, month, day) := ord2ymd (epochDay + t / 86400000000).toNat
  let rest := (t % 86400000000).toNat
  { year := year
    month := month
    day := day
    hour := rest / 3600000000
    minute := rest / 60000000 % 60
    second := rest / 1000000 % 60
    microsecond := rest % 1000000 }

/-- `LoasCctvHandler`, its settings. -/
structure LoasCctvHandler where
  storageRoot : String
  amrId : String
  subdir : String := "cctv"
deriving DecidableEq, Repr

/-- `_build_path`. -/
def LoasCctvHandler.buildPath (h : LoasCctvHandler) (ts : Timestamp)
    (targetId : Option Int) : String :=
  let t := kst ts
  let date := toString t.year ++ "-" ++ pad 2 t.month ++ "-" ++ pad 2 t.day
  let stamp := toString t.year ++ pad 2 t.month ++ pad 2 t.day ++ pad 2 t.hour ++
    pad 2 t.minute ++ pad 2 t.second ++ "_" ++ pad 3 (t.microsecond / 1000)
  let tid := match targetId with
    | some n => toString n
    | none => "NA"
  h.storageRoot ++ "/" ++ h.subdir ++ "/" ++ h.amrId ++ "/" ++ date ++ "/" ++ pad 2 t.hour ++
    "/" ++ tid ++ "_" ++ stamp ++ ".jpg"

example : LoasCctvHandler.buildPath ⟨"/data", "amr1", "cctv"⟩ 0 (some 7) =
    "/data/cctv/amr1/1970-01-01/09/7_19700101090000_000.jpg" := by
  decide +kernel

/-- What is shown of a time goes by its millisecond. -/
theorem kst_congr {t t' : Int} (h : t / 1000 = t' / 1000) :
    ({ kst t with microsecond := (kst t).microsecond / 1000 } : DateTime) =
      { kst t' with microsecond := (kst t').microsecond / 1000 } := by
  have hday : (t + 32400000000) / 86400000000 = (t' + 32400000000) / 86400000000 := by omega
  have hrest : ((t + 32400000000) % 86400000000).toNat / 1000 =
      ((t' + 32400000000) % 86400000000).toNat / 1000 := by omega
  have hmillis : ∀ n : Nat, n % 1000000 / 1000 = n / 1000 % 1000 := by omega
  have hsecond : ∀ n : Nat, n / 1000000 % 60 = n / 1000 / 1000 % 60 := by omega
  have hminute : ∀ n : Nat, n / 60000000 % 60 = n / 1000 / 60000 % 60 := by omega
  have hhour : ∀ n : Nat, n / 3600000000 = n / 1000 / 3600000 := by omega
  simp only [kst, hday, hmillis, hsecond, hminute, hhour, hrest]

/-- Two frames of one millisecond have one path. -/
theorem buildPath_congr (h : LoasCctvHandler) {ts ts' : Timestamp} (targetId : Option Int)
    (heq : ts / 1000 = ts' / 1000) : h.buildPath ts targetId = h.buildPath ts' targetId := by
  have hkst := kst_congr heq
  simp only [DateTime.mk.injEq] at hkst
  obtain ⟨hyear, hmonth, hday, hhour, hminute, hsecond, hmillis⟩ := hkst
  simp only [LoasCctvHandler.buildPath, hyear, hmonth, hday, hhour, hminute, hsecond, hmillis]

/-! ## The system -/

/-- A frame that the gate has let through. -/
structure Frame where
  receivedAt : Timestamp
  path : String
  jpg : List UInt8
  resolution : String
  sourceIp : String
deriving DecidableEq, Repr

/-- A row of `cctv_frame`.  `frame` is the frame it was inserted for; nothing
of the source reads it. -/
structure CctvRow where
  id : Nat
  receivedAt : Timestamp
  amrId : String
  sourceIp : String
  resolution : String
  filePath : String
  byteSize : Nat
  frame : Frame
deriving DecidableEq, Repr

/-- The row that is inserted for the frame. -/
def LoasCctvHandler.row (h : LoasCctvHandler) (f : Frame) (id : Nat) : CctvRow where
  id := id
  receivedAt := f.receivedAt
  amrId := h.amrId
  sourceIp := f.sourceIp
  resolution := f.resolution
  filePath := f.path
  byteSize := f.jpg.length
  frame := f

/-- A call of `on_frame`. -/
inductive Call where
  | idle
  /-- The thread has not opened the file yet. -/
  | opening (f : Frame)
  /-- The thread has the file open, and has written so many bytes. -/
  | writing (f : Frame) (file pos : Nat)
  | inserting (f : Frame) (file : Nat)
  | finished
deriving DecidableEq, Repr

/-- The gate of `waypoint_gate.py`, the files, the table and the calls. -/
structure System where
  allowSave : Bool := true
  targetId : Option Int := none
  disk : Disk String UInt8 := Disk.empty
  rows : SerialTable CctvRow.id := SerialTable.empty
  calls : Nat → Call := fun _ => .idle

/-- What happens next. -/
inductive Event where
  /-- The dust handler sets the gate. -/
  | setGate (allowSave : Bool) (targetId : Option Int)
  /-- A call of `on_frame` begins. -/
  | onFrame (i : Nat) (jpg : List UInt8) (resolution sourceIp : String) (now : Timestamp)
  /-- The thread opens the file. -/
  | openFile (i : Nat)
  /-- The thread writes so many bytes more. -/
  | writeBytes (i : Nat) (count : Nat)
  /-- The thread raises an `OSError`. -/
  | failWrite (i : Nat)
  /-- The thread closes the file, with all bytes in it. -/
  | closeFile (i : Nat)
  /-- The insert ends, and the unlink of the file after an exception. -/
  | insertEnds (i : Nat) (o : Outcome) (unlinkFails : Bool)

def System.setCall (s : System) (i : Nat) (c : Call) : System :=
  { s with calls := Function.update s.calls i c }

/-- The system after the event. -/
def step (h : LoasCctvHandler) (s : System) : Event → System
  | .setGate allowSave targetId => { s with allowSave := allowSave, targetId := targetId }
  | .onFrame i jpg resolution sourceIp now =>
    match s.calls i with
    | .idle =>
      if s.allowSave then
        s.setCall i (.opening
          { receivedAt := now
            path := h.buildPath now s.targetId
            jpg := jpg
            resolution := resolution
            sourceIp := sourceIp })
      else s.setCall i .finished
    | _ => s
  | .openFile i =>
    match s.calls i with
    | .opening f =>
      { s with disk := (s.disk.openWrite f.path).2 }.setCall i
        (.writing f (s.disk.openWrite f.path).1 0)
    | _ => s
  | .writeBytes i count =>
    match s.calls i with
    | .writing f file pos =>
      { s with disk := s.disk.write file pos ((f.jpg.drop pos).take count) }.setCall i
        (.writing f file (min (pos + count) f.jpg.length))
    | _ => s
  | .failWrite i =>
    match s.calls i with
    | .opening _ | .writing _ _ _ => s.setCall i .finished
    | _ => s
  | .closeFile i =>
    match s.calls i with
    | .writing f file pos =>
      if pos = f.jpg.length then s.setCall i (.inserting f file) else s
    | _ => s
  | .insertEnds i o unlinkFails =>
    match s.calls i with
    | .inserting f _ =>
      { s with
        rows := o.settle s.rows (s.rows.append (h.row f) fun _ => rfl)
        disk := if o.exc?.isSome then s.disk.unlink f.path unlinkFails else s.disk }.setCall i
          .finished
    | _ => s

/-! ## The property -/

/-- All calls are over. -/
def Quiet (s : System) : Prop := ∀ i, s.calls i = .idle ∨ s.calls i = .finished

/-- Every row names a file with the image it was inserted for. -/
def RowsHold (s : System) : Prop :=
  ∀ row ∈ s.rows.rows, s.disk.read row.filePath = some row.frame.jpg

/-- The frame of a call that is at work. -/
def Call.frame? : Call → Option Frame
  | .opening f | .writing f _ _ | .inserting f _ => some f
  | .idle | .finished => none

/-- The file that a call has written to. -/
def Call.file? : Call → Option Nat
  | .writing _ file _ | .inserting _ file => some file
  | _ => none

/-- The file that the event removes is the one that the call has written,
and no other call and no row has it. -/
def RemovesOwn (s : System) : Event → Prop
  | .insertEnds i o _ =>
    ∀ f file, s.calls i = .inserting f file → o.exc?.isSome = true →
      (∀ n ∈ s.disk.names f.path, n = file) ∧
        (∀ j, j ≠ i → (s.calls j).file? ≠ some file) ∧
        ∀ row ∈ s.rows.rows, row.filePath ≠ f.path
  | _ => True

/-- In the run, whenever all calls are over the rows name the files with
their images, and only own files are removed. -/
structure Consistent (h : LoasCctvHandler) (disk : Disk String UInt8) (events : List Event) :
    Prop where
  rows : ∀ pre, pre <+: events → Quiet (run (step h) { disk := disk } pre) →
    RowsHold (run (step h) { disk := disk } pre)
  removed : AllSteps (step h) RemovesOwn { disk := disk } events

/-- No row and no call at work has the path. -/
def Free (s : System) (path : String) : Prop :=
  (∀ row ∈ s.rows.rows, row.filePath ≠ path) ∧
    ∀ j, ∀ f ∈ (s.calls j).frame?, f.path ≠ path

/-- A frame that the gate lets through gets a path that no row and no other
call has, and an insert that fails was not applied, or the file stays. -/
def PathsFree (h : LoasCctvHandler) (s : System) : Event → Prop
  | .onFrame i _ _ _ now =>
    s.calls i = .idle → s.allowSave = true → Free s (h.buildPath now s.targetId)
  | .insertEnds _ (.lost _) unlinkFails => unlinkFails = true
  | _ => True

/-! ## What a run keeps -/

/-- The calls at work have paths of their own, what they have written is in
their files, and the rows name the files with their images. -/
structure Sound (s : System) : Prop where
  distinct : ∀ i j f g, (s.calls i).frame? = some f → (s.calls j).frame? = some g → i ≠ j →
    f.path ≠ g.path
  unrowed : ∀ i f, (s.calls i).frame? = some f → ∀ row ∈ s.rows.rows, row.filePath ≠ f.path
  writing : ∀ i f file pos, s.calls i = .writing f file pos →
    pos ≤ f.jpg.length ∧ s.disk.Wrote f.path file (f.jpg.take pos)
  inserting : ∀ i f file, s.calls i = .inserting f file → s.disk.Wrote f.path file f.jpg
  rows : RowsHold s

theorem sound_init (disk : Disk String UInt8) : Sound { disk := disk } where
  distinct := fun _ _ _ _ h => by contradiction
  unrowed := fun _ _ h => by contradiction
  writing := fun _ _ _ _ h => by contradiction
  inserting := fun _ _ _ h => by contradiction
  rows := fun _ h => absurd h List.not_mem_nil

variable {h : LoasCctvHandler} {s s' : System} {e : Event} {i : Nat} {f : Frame} {c : Call}

/-- What a call is after another one was set it was before. -/
theorem calls_of_setCall {j : Nat} {d : Call} (hd : (s.setCall i c).calls j = d) (hne : d ≠ c) :
    s.calls j = d := by
  simp only [System.setCall] at hd
  by_cases hj : j = i
  · rw [hj, Function.update_self] at hd
    exact absurd hd.symm hne
  · rw [Function.update_of_ne hj] at hd
    exact hd

/-- A call goes on with its frame, or is over, and does nothing behind the
other paths. -/
theorem Sound.advance (hs : Sound s) (hf : (s.calls i).frame? = some f)
    (hcalls : s'.calls = Function.update s.calls i c)
    (hc : c.frame? = some f ∨ c.frame? = none)
    (hwrote : ∀ q, q ≠ f.path → ∀ n written, s.disk.Wrote q n written →
      s'.disk.Wrote q n written)
    (hread : ∀ q, q ≠ f.path → s'.disk.read q = s.disk.read q)
    (hwriting : ∀ g file pos, c = .writing g file pos →
      pos ≤ g.jpg.length ∧ s'.disk.Wrote g.path file (g.jpg.take pos))
    (hinserting : ∀ g file, c = .inserting g file → s'.disk.Wrote g.path file g.jpg)
    (hrows : ∀ row ∈ s'.rows.rows, row ∈ s.rows.rows ∨
      (c.frame? = none ∧ row.filePath = f.path ∧
        s'.disk.read f.path = some row.frame.jpg)) : Sound s' := by
  have hself : s'.calls i = c := by rw [hcalls, Function.update_self]
  have hother : ∀ {j}, j ≠ i → s'.calls j = s.calls j := fun hj => by
    rw [hcalls, Function.update_of_ne hj]
  -- a call at work after the step was at work with the same frame before
  have hbefore : ∀ {j g}, (s'.calls j).frame? = some g → (s.calls j).frame? = some g := by
    intro j g hg
    by_cases hj : j = i
    · subst hj
      rw [hself] at hg
      rcases hc with hc | hc
      · rw [hf, ← hc, hg]
      · rw [hc] at hg
        contradiction
    · rw [← hother hj]
      exact hg
  refine ⟨fun j k g g' hg hg' => hs.distinct j k g g' (hbefore hg) (hbefore hg'),
    fun j g hg row hrow => ?_, fun j g file pos hj => ?_, fun j g file hj => ?_,
    fun row hrow => ?_⟩
  · rcases hrows row hrow with hrow | ⟨hover, hpath, -⟩
    · exact hs.unrowed j g (hbefore hg) row hrow
    · rw [hpath]
      refine hs.distinct i j f g hf (hbefore hg) ?_
      rintro rfl
      rw [hself, hover] at hg
      contradiction
  · by_cases hji : j = i
    · subst hji
      exact hwriting g file pos (hself.symm.trans hj)
    · rw [hother hji] at hj
      obtain ⟨hpos, hw⟩ := hs.writing j g file pos hj
      have hg : (s.calls j).frame? = some g := by
        rw [hj]
        rfl
      exact ⟨hpos, hwrote g.path (hs.distinct j i g f hg hf hji) file _ hw⟩
  · by_cases hji : j = i
    · subst hji
      exact hinserting g file (hself.symm.trans hj)
    · rw [hother hji] at hj
      have hg : (s.calls j).frame? = some g := by
        rw [hj]
        rfl
      exact hwrote g.path (hs.distinct j i g f hg hf hji) file _ (hs.inserting j g file hj)
  · rcases hrows row hrow with hrow | ⟨-, hpath, hread⟩
    · rw [hread row.filePath (hs.unrowed i f hf row hrow)]
      exact hs.rows row hrow
    · rw [hpath]
      exact hread

/-- A call begins, with a path of its own. -/
theorem Sound.begin (hs : Sound s) (hfree : Free s f.path) :
    Sound (s.setCall i (.opening f)) := by
  obtain ⟨hrows, hcalls⟩ := hfree
  have hcase : ∀ {j g}, ((s.setCall i (.opening f)).calls j).frame? = some g →
      (j = i ∧ g = f) ∨ (j ≠ i ∧ (s.calls j).frame? = some g) := by
    intro j g hg
    simp only [System.setCall] at hg
    by_cases hj : j = i
    · rw [hj, Function.update_self] at hg
      exact Or.inl ⟨hj, (Option.some.inj hg).symm⟩
    · rw [Function.update_of_ne hj] at hg
      exact Or.inr ⟨hj, hg⟩
  refine ⟨fun j k g g' hg hg' hne => ?_, fun j g hg row hrow => ?_, fun j g file pos hj => ?_,
    fun j g file hj => ?_, hs.rows⟩
  · rcases hcase hg with ⟨hji, hgf⟩ | ⟨-, hj⟩
    · rcases hcase hg' with ⟨hki, -⟩ | ⟨-, hk⟩
      · exact absurd (hji.trans hki.symm) hne
      · rw [hgf]
        exact (hcalls k g' hk).symm
    · rcases hcase hg' with ⟨-, hgf⟩ | ⟨-, hk⟩
      · rw [hgf]
        exact hcalls j g hj
      · exact hs.distinct j k g g' hj hk hne
  · rcases hcase hg with ⟨-, rfl⟩ | ⟨-, hg⟩
    · exact hrows row hrow
    · exact hs.unrowed j g hg row hrow
  · exact hs.writing j g file pos (calls_of_setCall hj nofun)
  · exact hs.inserting j g file (calls_of_setCall hj nofun)

/-- A call is over without having a row. -/
theorem Sound.drop (hs : Sound s) (i : Nat) : Sound (s.setCall i .finished) := by
  have hframe : ∀ {j g}, ((s.setCall i .finished).calls j).frame? = some g →
      (s.calls j).frame? = some g := by
    intro j g hg
    rw [calls_of_setCall rfl]
    · exact hg
    · intro hover
      rw [hover] at hg
      contradiction
  exact ⟨fun j k g g' hg hg' => hs.distinct j k g g' (hframe hg) (hframe hg'),
    fun j g hg => hs.unrowed j g (hframe hg),
    fun j g file pos hj => hs.writing j g file pos (calls_of_setCall hj nofun),
    fun j g file hj => hs.inserting j g file (calls_of_setCall hj nofun), hs.rows⟩

theorem Sound.openFile (hs : Sound s) (hcall : s.calls i = .opening f) :
    Sound (step h s (.openFile i)) := by
  simp only [step, hcall]
  refine hs.advance (by rw [hcall]; rfl) rfl (Or.inl rfl)
    (fun q hq n written hw => hw.openWrite_of_ne hq) (fun q hq => Disk.read_openWrite_of_ne hq)
    ?_ nofun fun row hrow => Or.inl hrow
  intro g file pos hwriting
  obtain ⟨rfl, rfl, rfl⟩ := Call.writing.inj hwriting
  exact ⟨Nat.zero_le _, Disk.wrote_openWrite _ _⟩

theorem Sound.writeBytes (hs : Sound s) {file pos : Nat} (hcall : s.calls i = .writing f file pos)
    (count : Nat) : Sound (step h s (.writeBytes i count)) := by
  obtain ⟨hpos, hw⟩ := hs.writing i f file pos hcall
  simp only [step, hcall]
  refine hs.advance (by rw [hcall]; rfl) rfl (Or.inl rfl)
    (fun q hq n written hw' => hw'.write_of_ne hw.names hq _ _)
    (fun q hq => Disk.read_write_of_ne hw.names hq _ _) ?_ nofun fun row hrow => Or.inl hrow
  intro g file' pos' hwriting
  obtain ⟨rfl, rfl, rfl⟩ := Call.writing.inj hwriting
  refine ⟨Nat.min_le_right _ _, ?_⟩
  rw [← List.take_eq_take_min]
  exact hw.write hpos count

/-- The file that is closed has all bytes in it. -/
theorem Sound.closeFile (hs : Sound s) {file : Nat}
    (hcall : s.calls i = .writing f file f.jpg.length) :
    Sound (s.setCall i (.inserting f file)) := by
  obtain ⟨-, hw⟩ := hs.writing i f file _ hcall
  rw [List.take_length] at hw
  refine hs.advance (by rw [hcall]; rfl) rfl (Or.inl rfl) (fun _ _ _ _ hw => hw)
    (fun _ _ => rfl) nofun ?_ fun row hrow => Or.inl hrow
  intro g file' hinserting
  obtain ⟨rfl, rfl⟩ := Call.inserting.inj hinserting
  exact hw

/-- Where the insert was applied, the file is there. -/
theorem Sound.insertEnds (hs : Sound s) {file : Nat} (hcall : s.calls i = .inserting f file)
    (o : Outcome) (unlinkFails : Bool) (he : PathsFree h s (.insertEnds i o unlinkFails)) :
    Sound (step h s (.insertEnds i o unlinkFails)) := by
  have hw := hs.inserting i f file hcall
  simp only [step, hcall]
  refine hs.advance (by rw [hcall]; rfl) rfl (Or.inr rfl) (fun q hq n written hw' => ?_)
    (fun q hq => ?_) (fun _ _ _ hover => by contradiction) (fun _ _ hover => by contradiction)
    fun row hrow => ?_
  · dsimp only [System.setCall]
    split
    · exact hw'.unlink_of_ne hq unlinkFails
    · exact hw'
  · dsimp only [System.setCall]
    split
    · exact Disk.read_unlink_of_ne hq unlinkFails
    · rfl
  · cases o with
    | ok =>
      have happended : row ∈ (s.rows.append (h.row f) fun _ => rfl).rows := hrow
      rcases SerialTable.mem_append.mp happended with hrow | rfl
      · exact Or.inl hrow
      · exact Or.inr ⟨rfl, rfl, hw.read⟩
    | failed exc => exact Or.inl hrow
    | lost exc =>
      -- the row is there, and so is the file
      obtain rfl : unlinkFails = true := he
      have happended : row ∈ (s.rows.append (h.row f) fun _ => rfl).rows := hrow
      rcases SerialTable.mem_append.mp happended with hrow | rfl
      · exact Or.inl hrow
      · exact Or.inr ⟨rfl, rfl, hw.read⟩

theorem sound_step (hs : Sound s) (he : PathsFree h s e) : Sound (step h s e) := by
  cases e with
  | setGate allowSave targetId => exact ⟨hs.distinct, hs.unrowed, hs.writing, hs.inserting, hs.rows⟩
  | onFrame i jpg resolution sourceIp now =>
    dsimp only [step]
    split
    · next hidle =>
      split
      · next hallow => exact hs.begin (he hidle hallow)
      · exact hs.drop i
    · exact hs
  | openFile i =>
    cases hcall : s.calls i with
    | opening f => exact hs.openFile hcall
    | _ => simpa only [step, hcall] using hs
  | writeBytes i count =>
    cases hcall : s.calls i with
    | writing f file pos => exact hs.writeBytes hcall count
    | _ => simpa only [step, hcall] using hs
  | failWrite i =>
    dsimp only [step]
    split
    · exact hs.drop i
    · exact hs.drop i
    · exact hs
  | closeFile i =>
    dsimp only [step]
    split
    · next f file pos hcall =>
      split
      · next hpos => exact hs.closeFile (hpos ▸ hcall)
      · exact hs
    · exact hs
  | insertEnds i o unlinkFails =>
    cases hcall : s.calls i with
    | inserting f file => exact hs.insertEnds hcall o unlinkFails he
    | _ => simpa only [step, hcall] using hs

/-- An insert that fails removes the own file only. -/
theorem removesOwn_of_sound (hs : Sound s) (e : Event) : RemovesOwn s e := by
  cases e with
  | insertEnds i o unlinkFails =>
    intro f file hcall _
    have hf : (s.calls i).frame? = some f := by
      rw [hcall]
      rfl
    have hw := hs.inserting i f file hcall
    refine ⟨fun n hn => ?_, fun j hj hfile => ?_, fun row hrow => hs.unrowed i f hf row hrow⟩
    · exact Option.some.inj (hn.symm.trans hw.names)
    · -- a file of another call is behind another path
      cases hcallj : s.calls j with
      | writing g file' pos =>
        have hg : (s.calls j).frame? = some g := by
          rw [hcallj]
          rfl
        rw [hcallj] at hfile
        obtain rfl : file' = file := Option.some.inj hfile
        have hnames := (hs.writing j g file' pos hcallj).2.names
        exact hs.distinct j i g f hg hf hj (s.disk.eq_of_names _ _ _ hnames hw.names)
      | inserting g file' =>
        have hg : (s.calls j).frame? = some g := by
          rw [hcallj]
          rfl
        rw [hcallj] at hfile
        obtain rfl : file' = file := Option.some.inj hfile
        have hnames := (hs.inserting j g file' hcallj).names
        exact hs.distinct j i g f hg hf hj (s.disk.eq_of_names _ _ _ hnames hw.names)
      | _ =>
        rw [hcallj] at hfile
        contradiction
  | _ => trivial

/-- In every run whose steps meet the condition, the rows name the files with
their images, and only own files are removed. -/
theorem consistent_of_pathsFree (h : LoasCctvHandler) (disk : Disk String UInt8)
    (events : List Event) (hfree : AllSteps (step h) (PathsFree h) { disk := disk } events) :
    Consistent h disk events where
  rows := by
    rintro pre ⟨post, rfl⟩ _
    exact (run_invariant_of_allSteps (fun _ _ => sound_step) (sound_init disk)
      (allSteps_append.mp hfree).1).rows
  removed :=
    hfree.imp Sound (fun _ _ => sound_step) (fun _ e hs _ => removesOwn_of_sound hs e)
      (sound_init disk)

/-! ## What a step can touch -/

theorem calls_setCall (s : System) (i j : Nat) (c : Call) :
    (s.setCall j c).calls i = if i = j then c else s.calls i :=
  Function.update_apply _ _ _ _

/-- A call that writes has opened the file by its path. -/
def OpenedByCalls (s : System) : Prop :=
  ∀ i f file pos, s.calls i = .writing f file pos → s.disk.Opened f.path file

/-- One call goes on, and what the others have open stays so. -/
theorem OpenedByCalls.setCall {disk : Disk String UInt8} {rows : SerialTable CctvRow.id}
    (hs : OpenedByCalls s) (hdisk : ∀ p n, s.disk.Opened p n → disk.Opened p n)
    (hc : ∀ f file pos, c = .writing f file pos → disk.Opened f.path file) :
    OpenedByCalls ({ s with disk := disk, rows := rows }.setCall i c) := by
  intro j f file pos hj
  rw [calls_setCall] at hj
  split at hj
  · exact hc f file pos hj
  · exact hdisk _ _ (hs j f file pos hj)

theorem openedByCalls_step (hs : OpenedByCalls s) (e : Event) : OpenedByCalls (step h s e) := by
  have hsame : ∀ p n, s.disk.Opened p n → s.disk.Opened p n := fun _ _ hopened => hopened
  cases e with
  | setGate allowSave targetId => exact hs
  | onFrame i jpg resolution sourceIp now =>
    dsimp only [step]
    split
    · split
      · exact hs.setCall hsame nofun
      · exact hs.setCall hsame nofun
    · exact hs
  | openFile i =>
    dsimp only [step]
    split
    · refine hs.setCall (fun p n hopened => hopened.openWrite _) ?_
      rintro g file pos heq
      obtain ⟨rfl, rfl, rfl⟩ := Call.writing.inj heq
      exact Disk.opened_openWrite _ _
    · exact hs
  | writeBytes i count =>
    dsimp only [step]
    split
    · next f file pos hcall =>
      refine hs.setCall (fun p n hopened => hopened.write _ _) ?_
      rintro g file' pos' heq
      obtain ⟨rfl, rfl, rfl⟩ := Call.writing.inj heq
      exact (hs i f file pos hcall).write _ _
    · exact hs
  | failWrite i =>
    dsimp only [step]
    split
    · exact hs.setCall hsame nofun
    · exact hs.setCall hsame nofun
    · exact hs
  | closeFile i =>
    dsimp only [step]
    split
    · split
      · exact hs.setCall hsame nofun
      · exact hs
    · exact hs
  | insertEnds i o unlinkFails =>
    dsimp only [step]
    split
    · refine hs.setCall (fun p n hopened => ?_) nofun
      split
      · exact hopened.unlink _ _
      · exact hopened
    · exact hs

/-- Only the files of the calls at work are created, changed or removed. -/
theorem exists_frame_of_read_step_ne (hs : OpenedByCalls s) {p : String}
    (hp : (step h s e).disk.read p ≠ s.disk.read p) :
    ∃ i f, (s.calls i).frame? = some f ∧ f.path = p := by
  cases e with
  | openFile i =>
    dsimp only [step] at hp
    split at hp
    · next f hcall =>
      refine ⟨i, f, by rw [hcall]; rfl, ?_⟩
      by_contra hne
      exact hp (Disk.read_openWrite_of_ne (Ne.symm hne))
    · contradiction
  | writeBytes i count =>
    dsimp only [step] at hp
    split at hp
    · next f file pos hcall =>
      refine ⟨i, f, by rw [hcall]; rfl, ?_⟩
      by_contra hne
      exact hp ((hs i f file pos hcall).read_write_of_ne (Ne.symm hne) _ _)
    · contradiction
  | insertEnds i o unlinkFails =>
    dsimp only [step] at hp
    split at hp
    · next f file hcall =>
      refine ⟨i, f, by rw [hcall]; rfl, ?_⟩
      by_contra hne
      refine hp ?_
      dsimp only [System.setCall]
      split
      · exact Disk.read_unlink_of_ne (Ne.symm hne) unlinkFails
      · rfl
    · contradiction
  | setGate allowSave targetId => contradiction
  | onFrame i jpg resolution sourceIp now =>
    dsimp only [step] at hp
    split at hp
    · split at hp <;> contradiction
    · contradiction
  | failWrite i =>
    dsimp only [step] at hp
    split at hp <;> contradiction
  | closeFile i =>
    dsimp only [step] at hp
    split at hp
    · split at hp <;> contradiction
    · contradiction

/-- A new row is that of a call at work. -/
theorem exists_frame_of_mem_rows_step {row : CctvRow} (hrow : row ∈ (step h s e).rows.rows) :
    row ∈ s.rows.rows ∨
      ∃ i f, (s.calls i).frame? = some f ∧ row = h.row f row.id := by
  cases e with
  | insertEnds i o unlinkFails =>
    dsimp only [step] at hrow
    split at hrow
    · next f file hcall =>
      dsimp only [System.setCall, Outcome.settle] at hrow
      split at hrow
      · rcases SerialTable.mem_append.mp hrow with hrow | rfl
        · exact Or.inl hrow
        · exact Or.inr ⟨i, f, by rw [hcall]; rfl, rfl⟩
      · exact Or.inl hrow
    · exact Or.inl hrow
  | setGate allowSave targetId => exact Or.inl hrow
  | onFrame i jpg resolution sourceIp now =>
    dsimp only [step] at hrow
    split at hrow
    · split at hrow <;> exact Or.inl hrow
    · exact Or.inl hrow
  | closeFile i =>
    dsimp only [step] at hrow
    split at hrow
    · split at hrow <;> exact Or.inl hrow
    · exact Or.inl hrow
  | _ =>
    dsimp only [step] at hrow
    split at hrow <;> exact Or.inl hrow

/-! ## Two frames of one millisecond -/

/-- The call that the event is about. -/
def Event.call? : Event → Option Nat
  | .setGate _ _ => none
  | .onFrame i _ _ _ _ | .openFile i | .writeBytes i _ | .failWrite i | .closeFile i
  | .insertEnds i _ _ => some i

theorem calls_step_of_ne {j : Nat} (h : LoasCctvHandler) (s : System)
    (hj : e.call? ≠ some j) : (step h s e).calls j = s.calls j := by
  have hset : ∀ {i : Nat} (t : System) (c : Call), some i ≠ some j →
      (t.setCall i c).calls j = t.calls j := by
    intro i t c hne
    exact Function.update_of_ne (fun heq => hne (congrArg some heq.symm)) _ _
  cases e with
  | setGate allowSave targetId => rfl
  | onFrame i jpg resolution sourceIp now =>
    dsimp only [step]
    split
    · split <;> exact hset s _ hj
    · rfl
  | closeFile i =>
    dsimp only [step]
    split
    · split
      · exact hset s _ hj
      · rfl
    · rfl
  | failWrite i =>
    dsimp only [step]
    split
    · exact hset s _ hj
    · exact hset s _ hj
    · rfl
  | _ =>
    dsimp only [step]
    split
    · exact hset _ _ hj
    · rfl

/-- A run leaves the calls alone that none of its events is about. -/
theorem calls_run_of_not_mem {j : Nat} (h : LoasCctvHandler) (s : System) (events : List Event)
    (hj : ∀ e ∈ events, e.call? ≠ some j) : (run (step h) s events).calls j = s.calls j := by
  induction events generalizing s with
  | nil => rfl
  | cons e events ih =>
    rw [run_cons, ih _ fun x hx => hj x (List.mem_cons_of_mem e hx)]
    exact calls_step_of_ne h s (hj e List.mem_cons_self)

def amr : LoasCctvHandler where
  storageRoot := "/data"
  amrId := "amr1"

/-- What the call with the image does until it waits for its insert. -/
def saved (i : Nat) (jpg : List UInt8) (now : Timestamp) : List Event :=
  [.onFrame i jpg "640x480" "10.0.0.5" now, .openFile i, .writeBytes i jpg.length, .closeFile i]

/-- Two frames that come in a millisecond apart. -/
def apart : List Event :=
  saved 0 [1, 2] 5000 ++ saved 1 [3] 6000 ++ [.insertEnds 0 .ok false, .insertEnds 1 .ok false]

theorem call?_of_mem_saved {i : Nat} {jpg : List UInt8} {now : Timestamp}
    (he : e ∈ saved i jpg now) : e.call? = some i := by
  simp only [saved, List.mem_cons, List.not_mem_nil, or_false] at he
  rcases he with rfl | rfl | rfl | rfl <;> rfl

theorem pathsFree_apart :
    AllSteps (step amr) (PathsFree amr) { disk := Disk.empty } apart := by
  have hfirst : Free { disk := Disk.empty } (amr.buildPath 5000 none) :=
    ⟨fun _ hrow => absurd hrow List.not_mem_nil, fun _ _ hf => by contradiction⟩
  have hsecond : Free (run (step amr) { disk := Disk.empty } (saved 0 [1, 2] 5000))
      (amr.buildPath 6000 none) := by
    refine ⟨fun _ hrow => absurd hrow List.not_mem_nil, fun j f hf => ?_⟩
    by_cases hj : j = 0
    · subst hj
      have hpath : ∀ f ∈ ((run (step amr) { disk := Disk.empty }
          (saved 0 [1, 2] 5000)).calls 0).frame?, f.path ≠ amr.buildPath 6000 none := by
        decide +kernel
      exact hpath f hf
    · rw [calls_run_of_not_mem amr _ _ fun e he => ?_] at hf
      · contradiction
      · rw [call?_of_mem_saved he]
        exact fun h => hj (Option.some.inj h).symm
  exact ⟨fun _ _ => hfirst, trivial, trivial, trivial, fun _ _ => hsecond, trivial, trivial,
    trivial, trivial, trivial, trivial⟩

theorem consistent_apart : Consistent amr Disk.empty apart :=
  consistent_of_pathsFree amr Disk.empty apart pathsFree_apart

/-- Two frames come in the same millisecond. -/
def together : List Event :=
  saved 0 [1, 2] 5000 ++ saved 1 [3] 5400 ++ [.insertEnds 0 .ok false, .insertEnds 1 .ok false]

/-- The second of them is saved when the first has its row. -/
def oneAfterOther : List Event :=
  saved 0 [1, 2] 5000 ++ [.insertEnds 0 .ok false] ++ saved 1 [3] 5400

theorem quiet_together : Quiet (run (step amr) { disk := Disk.empty } together) := by
  intro j
  by_cases h0 : j = 0
  · subst h0
    decide +kernel
  · by_cases h1 : j = 1
    · subst h1
      decide +kernel
    · have hcalls : ∀ e ∈ together, e.call? = some 0 ∨ e.call? = some 1 := by decide
      refine Or.inl (calls_run_of_not_mem amr _ _ fun e he hcall => ?_)
      rcases hcalls e he with h | h
      · exact h0 (Option.some.inj (hcall.symm.trans h))
      · exact h1 (Option.some.inj (hcall.symm.trans h))

instance (s : System) : Decidable (RowsHold s) :=
  inferInstanceAs (Decidable (∀ row ∈ s.rows.rows, _))

/-- The file of the first frame has the image of the second, and where the
insert of the second one fails, the file of the first is removed. -/
theorem not_consistent_together :
    ¬ Consistent amr Disk.empty together ∧
      ¬ Consistent amr Disk.empty (oneAfterOther ++ [.insertEnds 1 (.failed "") false]) := by
  refine ⟨fun h => ?_, fun h => ?_⟩
  · exact absurd (h.rows together List.prefix_rfl quiet_together) (by decide +kernel)
  · have hcall : (run (step amr) { disk := Disk.empty } oneAfterOther).calls 1 =
        .inserting ⟨5400, amr.buildPath 5400 none, [3], "640x480", "10.0.0.5"⟩ 0 := by
      decide +kernel
    have hremoved := (allSteps_append.mp h.removed).2.1
    exact absurd (hremoved _ _ hcall rfl).2.2 (by decide +kernel)

end DustMonitoring.Ingestion.CctvFiles
