import Mathlib.Data.UInt
import DustMonitoring.Ingestion.VideoHandler
import DustMonitoring.Lib.Disk
import DustMonitoring.Lib.Paths
import DustMonitoring.Lib.Run
import DustMonitoring.Lib.Uuid

/-!
# The files of the uploaded videos

`handle_complete` writes the file of a complete video in a thread, and then
inserts the row that names it.  A session handles its messages one after the
other, but several sessions can be in `handle_complete` at the same time.

The path of the file is made of the station, the day and the video id that
the sender has chosen.  Only the insert looks whether the id is a UUID and
whether it is taken, and when the insert fails nobody removes the file.

* `handled_run`: however the sessions take turns, every answer is that of the
  handler in its session.
* `intact_of_accepted`: in a run in which the id of a file that is opened is a
  UUID of its own, nothing fails after the file was opened and every insert
  goes through, the rows name the files with their videos, and an error leaves
  the files as they were.
-/

namespace DustMonitoring.Ingestion.VideoFiles

open DustMonitoring.Lib

/-! ## The path -/

/-- The path of `_assemble_and_save`.  For an absolute id the part before it
is dropped by `pathlib`. -/
def filePath (h : VideoHandler) (today : String) (buf : VideoBuffer) : String :=
  if buf.videoId.toList.head? = some '/' then buf.videoId ++ ".bin"
  else (h.rowOf today buf).filePath

/-- What the path names. -/
def place (h : VideoHandler) (cwd : Place) (today : String) (buf : VideoBuffer) : Place :=
  resolve cwd (filePath h today buf).toList

/-- The last name of the file of an accepted id. -/
def fileName (videoId : String) : Name := videoId.toList ++ ".bin".toList

variable {h : VideoHandler} {cwd : Place}

theorem plain_fileName {videoId : String} (hid : '/' ∉ videoId.toList) :
    (fileName videoId).Plain := by
  have hlen : 4 ≤ (fileName videoId).length := by
    rw [fileName, List.length_append]
    exact Nat.le_add_left _ _
  refine ⟨?_, ?_, ?_, ?_⟩
  · rw [fileName, List.mem_append]
    exact not_or.mpr ⟨hid, by decide⟩
  all_goals
    intro heq
    rw [heq] at hlen
    contradiction

/-- The path of an accepted id is the one in the row. -/
theorem place_eq {today : String} {buf : VideoBuffer} (hid : '/' ∉ buf.videoId.toList) :
    place h cwd today buf = resolve cwd (h.rowOf today buf).filePath.toList := by
  have hhead : buf.videoId.toList.head? ≠ some '/' := fun heq => hid (List.mem_of_head? heq)
  rw [place, filePath, if_neg hhead]

/-- Different accepted ids have different files, whatever the station and the
day. -/
theorem place_ne {today today' : String} {buf buf' : VideoBuffer} {n n' : Nat}
    (hbuf : parseUuid buf.videoId = some n) (hbuf' : parseUuid buf'.videoId = some n')
    (hne : n ≠ n') : place h cwd today buf ≠ place h cwd today' buf' := by
  have hid := not_mem_of_parseUuid hbuf
  have hid' := not_mem_of_parseUuid hbuf'
  have htext : ∀ (today : String) (buf : VideoBuffer), ∃ dir : List Char,
      (h.rowOf today buf).filePath.toList = dir ++ '/' :: fileName buf.videoId := by
    intro today buf
    refine ⟨(h.storageRoot ++ "/videos/" ++ buf.stationId ++ "/" ++ today).toList, ?_⟩
    simp [VideoHandler.rowOf, fileName, String.toList_append, toString]
  obtain ⟨dir, hdir⟩ := htext today buf
  obtain ⟨dir', hdir'⟩ := htext today' buf'
  rw [place_eq hid, place_eq hid', hdir, hdir']
  refine ne_of_name_ne (plain_fileName hid) (plain_fileName hid') (fun heq => hne ?_) _ _ _
  have hids : buf.videoId = buf'.videoId :=
    String.toList_inj.mp (List.append_cancel_right heq)
  rw [hids, hbuf'] at hbuf
  exact (Option.some.inj hbuf).symm

/-! ## The system -/

/-- A row of `video`.  `body` is the video it was inserted for; nothing of the
source reads it. -/
structure StoredVideo where
  uuid : Nat
  row : VideoRow
  body : List UInt8

/-- A file that is being saved.  `before` is what was behind its path when it
was opened; nothing of the source reads it. -/
structure Save where
  buf : VideoBuffer
  today : String
  file : Nat
  before : Option (List UInt8)

/-- Where a session is in `handle_complete`. -/
inductive Call where
  | idle
  /-- The thread has not opened the file yet. -/
  | opening (buf : VideoBuffer)
  /-- The thread has the file open, and has written so many bytes. -/
  | writing (save : Save) (pos : Nat)
  | inserting (save : Save)

/-- The files, the table and the sessions. -/
structure System where
  disk : Disk Place UInt8 := Disk.empty
  videos : Table StoredVideo.uuid := Table.empty
  sessions : Nat → IngestionSession := fun _ => {}
  calls : Nat → Call := fun _ => .idle

/-- What happens next. -/
inductive Event where
  | chunk (i : Nat) (station? : Option String) (payload : ChunkPayload)
  | complete (i : Nat) (metadata : Json)
  /-- The thread opens the file. -/
  | openFile (i : Nat) (today : String)
  /-- The thread writes so many bytes more. -/
  | writeBytes (i : Nat) (count : Nat)
  /-- The thread raises. -/
  | failSave (i : Nat) (today exc : String)
  /-- The thread closes the file, with all bytes in it. -/
  | closeFile (i : Nat)
  /-- The insert ends. -/
  | insertEnds (i : Nat) (o : Outcome) (exc : String)

/-- The session that the event is about. -/
def Event.session : Event → Nat
  | .chunk i _ _ | .complete i _ | .openFile i _ | .writeBytes i _ | .failSave i _ _
  | .closeFile i | .insertEnds i _ _ => i

/-- The buffer of a `VIDEO_COMPLETE` for a complete video. -/
def ready? (metadata : Json) (s : IngestionSession) : Option VideoBuffer :=
  match metadata with
  | .obj fields =>
    match Json.get fields "video_id" with
    | .str videoId =>
      if videoId = "" then none
      else (s.videoBuffers.find? videoId).filter VideoBuffer.isComplete
    | _ => none
  | _ => none

/-- `VideoRepository.insert`, the exception it ends with and the table after
it.  The constructor of `uuid.UUID` raises before anything is sent, and the
database refuses a key that is taken; `exc` is the text of such an exception. -/
def insertVideo (o : Outcome) (exc : String) (row : VideoRow) (body : List UInt8)
    (videos : Table StoredVideo.uuid) : Option String × Table StoredVideo.uuid :=
  match parseUuid row.videoId with
  | none => (some exc, videos)
  | some uuid =>
    if (videos.find? uuid).isSome then (some (o.exc?.getD exc), videos)
    else (o.exc?, o.settle videos (videos.insert ⟨uuid, row, body⟩))

/-- How the saving ends that ends with this exception of the insert. -/
def saveOutcome : Option String → SaveOutcome
  | none => .saved
  | some exc => .insertFailed exc

def System.setCall (s : System) (i : Nat) (c : Call) : System :=
  { s with calls := Function.update s.calls i c }

/-- The handler has come to its end. -/
def System.finish (s : System) (i : Nat) (out : IngestionSession × Reply × Effects) :
    System × Option Reply :=
  ({ s with
      sessions := Function.update s.sessions i out.1
      calls := Function.update s.calls i .idle },
    some out.2.1)

/-- The system after the event, and the reply that the sender gets. -/
def act (h : VideoHandler) (cwd : Place) (s : System) : Event → System × Option Reply
  | .chunk i station? payload =>
    match s.calls i with
    | .idle => s.finish i (VideoHandler.handleChunk station? payload (s.sessions i))
    | _ => (s, none)
  | .complete i metadata =>
    match s.calls i with
    | .idle =>
      match ready? metadata (s.sessions i) with
      | some buf => (s.setCall i (.opening buf), none)
      | none =>
        -- neither the day nor the outcome is looked at
        s.finish i (h.handleComplete "" .saved metadata (s.sessions i))
    | _ => (s, none)
  | .openFile i today =>
    match s.calls i with
    | .opening buf =>
      let p := place h cwd today buf
      let opened := s.disk.openWrite p
      ({ s with disk := opened.2 }.setCall i (.writing ⟨buf, today, opened.1, s.disk.read p⟩ 0),
        none)
    | _ => (s, none)
  | .writeBytes i count =>
    match s.calls i with
    | .writing save pos =>
      let body := save.buf.assemble
      ({ s with disk := s.disk.write save.file pos ((body.drop pos).take count) }.setCall i
        (.writing save (min (pos + count) body.length)), none)
    | _ => (s, none)
  | .failSave i today exc =>
    match s.calls i with
    | .opening buf => s.finish i (h.saveVideo today (.fileFailed exc) buf (s.sessions i))
    | .writing save _ =>
      s.finish i (h.saveVideo save.today (.fileFailed exc) save.buf (s.sessions i))
    | _ => (s, none)
  | .closeFile i =>
    match s.calls i with
    | .writing save pos =>
      if pos = save.buf.assemble.length then (s.setCall i (.inserting save), none) else (s, none)
    | _ => (s, none)
  | .insertEnds i o exc =>
    match s.calls i with
    | .inserting save =>
      let inserted := insertVideo o exc (h.rowOf save.today save.buf) save.buf.assemble s.videos
      { s with videos := inserted.2 }.finish i
        (h.saveVideo save.today (saveOutcome inserted.1) save.buf (s.sessions i))
    | _ => (s, none)

def step (h : VideoHandler) (cwd : Place) (s : System) (e : Event) : System := (act h cwd s e).1

/-- For a complete buffer the handler saves the video. -/
theorem handleComplete_of_ready {metadata : Json} {s : IngestionSession} {buf : VideoBuffer}
    (hready : ready? metadata s = some buf) (today : String) (save : SaveOutcome) :
    h.handleComplete today save metadata s = h.saveVideo today save buf s := by
  unfold ready? at hready
  split at hready
  · next fields =>
    split at hready
    · next videoId hget =>
      split at hready
      · contradiction
      · next hne =>
        obtain ⟨hfind, hcomplete⟩ := Option.filter_eq_some_iff.mp hready
        dsimp only [VideoHandler.handleComplete]
        rw [hget]
        dsimp only
        rw [if_neg hne, VideoHandler.completeVideo, hfind]
        dsimp only
        rw [if_pos hcomplete]
    · contradiction
  · contradiction

/-- Without one it leaves the session and the files, and neither the day nor
the outcome matters. -/
theorem handleComplete_of_not_ready {metadata : Json} {s : IngestionSession}
    (hready : ready? metadata s = none) (today : String) (save : SaveOutcome) :
    h.handleComplete today save metadata s = h.handleComplete "" .saved metadata s ∧
      (h.handleComplete today save metadata s).1 = s ∧
      (h.handleComplete today save metadata s).2.2.file? = none := by
  cases metadata with
  | obj fields =>
    cases hget : Json.get fields "video_id" with
    | str videoId =>
      simp only [ready?, hget] at hready
      simp only [VideoHandler.handleComplete, hget]
      by_cases hempty : videoId = ""
      · simp only [if_pos hempty, and_self]
      · rw [if_neg hempty] at hready
        simp only [if_neg hempty, VideoHandler.completeVideo]
        cases hfind : s.videoBuffers.find? videoId with
        | none => exact ⟨rfl, rfl, rfl⟩
        | some buf =>
          rw [hfind, Option.filter_eq_none_iff] at hready
          have hincomplete := hready buf rfl
          simp only [if_neg hincomplete, and_self]
    | arr items =>
      simp only [VideoHandler.handleComplete, hget]
      cases items <;> exact ⟨rfl, rfl, rfl⟩
    | obj items =>
      simp only [VideoHandler.handleComplete, hget]
      cases items <;> exact ⟨rfl, rfl, rfl⟩
    | _ =>
      simp only [VideoHandler.handleComplete, hget]
      split <;> simp [VideoHandler.noBuffer]
  | _ => exact ⟨rfl, rfl, rfl⟩

/-! ## The answers -/

/-- The video that a call works on. -/
def Call.buf? : Call → Option VideoBuffer
  | .idle => none
  | .opening buf => some buf
  | .writing save _ | .inserting save => some save.buf

/-- A session in a call still has the complete video of its message. -/
def Serving (s : System) : Prop :=
  ∀ i buf, (s.calls i).buf? = some buf → ∃ metadata, ready? metadata (s.sessions i) = some buf

/-- The session and the answer are those of the handler for the message, or, when
a video was saved, for one about this video.  Where there is none to save, neither
the day nor the outcome matters. -/
def Handled (h : VideoHandler) (s : IngestionSession) (answer : IngestionSession × Reply) :
    Event → Prop
  | .chunk _ station? payload =>
    let out := VideoHandler.handleChunk station? payload s
    (out.1, out.2.1) = answer
  | .complete _ metadata => ∀ today save,
    let out := h.handleComplete today save metadata s
    (out.1, out.2.1) = answer
  | .failSave _ _ _ | .insertEnds _ _ _ => ∃ metadata today save,
    let out := h.handleComplete today save metadata s
    (out.1, out.2.1) = answer
  | .openFile _ _ | .writeBytes _ _ | .closeFile _ => False

variable {s : System} {e : Event} {i : Nat}

theorem calls_step_of_ne {j : Nat} (hj : e.session ≠ j) :
    (step h cwd s e).calls j = s.calls j := by
  have hset : ∀ (calls : Nat → Call) (c : Call), Function.update calls e.session c j = calls j :=
    fun calls c => Function.update_of_ne hj.symm c calls
  cases e with
  | complete i metadata =>
    dsimp only [step, act]
    split
    · split <;> exact hset _ _
    · rfl
  | closeFile i =>
    dsimp only [step, act]
    split
    · split
      · exact hset _ _
      · rfl
    · rfl
  | failSave i today exc =>
    dsimp only [step, act]
    split
    · exact hset _ _
    · exact hset _ _
    · rfl
  | _ =>
    dsimp only [step, act]
    split
    · exact hset _ _
    · rfl

/-- A run leaves the other sessions alone. -/
theorem calls_run_of_ne {j : Nat} {events : List Event} (hj : ∀ e ∈ events, e.session ≠ j)
    (s : System) : (run (step h cwd) s events).calls j = s.calls j := by
  have hkeeps : ∀ t, ∀ e ∈ events, t.calls j = s.calls j →
      (step h cwd t e).calls j = s.calls j :=
    fun _ e he ht => (calls_step_of_ne (hj e he)).trans ht
  exact run_invariant_of_mem hkeeps rfl

theorem sessions_step_of_ne {j : Nat} (hj : e.session ≠ j) :
    (step h cwd s e).sessions j = s.sessions j := by
  have hset : ∀ (sessions : Nat → IngestionSession) (session : IngestionSession),
      Function.update sessions e.session session j = sessions j :=
    fun sessions session => Function.update_of_ne hj.symm session sessions
  cases e with
  | complete i metadata =>
    dsimp only [step, act]
    split
    · split
      · rfl
      · exact hset _ _
    · rfl
  | closeFile i =>
    dsimp only [step, act]
    split
    · split <;> rfl
    · rfl
  | failSave i today exc =>
    dsimp only [step, act]
    split
    · exact hset _ _
    · exact hset _ _
    · rfl
  | openFile i today =>
    dsimp only [step, act]
    split <;> rfl
  | writeBytes i count =>
    dsimp only [step, act]
    split <;> rfl
  | _ =>
    dsimp only [step, act]
    split
    · exact hset _ _
    · rfl

theorem Serving.setCall (hs : Serving s) {c : Call} (hc : c.buf? = (s.calls i).buf?)
    {buf : VideoBuffer} (hbuf : ((s.setCall i c).calls i).buf? = some buf) :
    ∃ metadata, ready? metadata (s.sessions i) = some buf := by
  have hself : (s.setCall i c).calls i = c := Function.update_self ..
  rw [hself, hc] at hbuf
  exact hs i buf hbuf

theorem buf?_finish (s : System) (i : Nat) (out : IngestionSession × Reply × Effects) :
    ((s.finish i out).1.calls i).buf? = none := by
  have hidle : (s.finish i out).1.calls i = .idle := Function.update_self ..
  rw [hidle, Call.buf?]

theorem serving_step (hs : Serving s) (e : Event) : Serving (step h cwd s e) := by
  intro j buf hbuf
  by_cases hj : e.session = j
  case neg =>
    rw [calls_step_of_ne hj] at hbuf
    rw [sessions_step_of_ne hj]
    exact hs j buf hbuf
  subst hj
  cases e with
  | chunk i station? payload =>
    dsimp only [step, act, Event.session] at hbuf ⊢
    split at hbuf
    · rw [buf?_finish] at hbuf
      contradiction
    · exact hs i buf hbuf
  | complete i metadata =>
    dsimp only [step, act, Event.session] at hbuf ⊢
    split at hbuf
    · split at hbuf
      · next opened hready =>
        have hself : (s.setCall i (.opening opened)).calls i = .opening opened :=
          Function.update_self ..
        dsimp only at hbuf
        rw [hself] at hbuf
        obtain rfl := Option.some.inj hbuf
        exact ⟨metadata, hready⟩
      · rw [buf?_finish] at hbuf
        contradiction
    · exact hs i buf hbuf
  | openFile i today =>
    dsimp only [step, act, Event.session] at hbuf ⊢
    split at hbuf
    · next hcall => exact hs.setCall (by rw [hcall]; rfl) hbuf
    · exact hs i buf hbuf
  | writeBytes i count =>
    dsimp only [step, act, Event.session] at hbuf ⊢
    split at hbuf
    · next hcall => exact hs.setCall (by rw [hcall]; rfl) hbuf
    · exact hs i buf hbuf
  | failSave i today exc =>
    dsimp only [step, act, Event.session] at hbuf ⊢
    split at hbuf
    · rw [buf?_finish] at hbuf
      contradiction
    · rw [buf?_finish] at hbuf
      contradiction
    · exact hs i buf hbuf
  | closeFile i =>
    dsimp only [step, act, Event.session] at hbuf ⊢
    split at hbuf
    · next save pos hcall =>
      by_cases hpos : pos = save.buf.assemble.length
      · rw [if_pos hpos] at hbuf ⊢
        exact hs.setCall (by rw [hcall]; rfl) hbuf
      · rw [if_neg hpos] at hbuf ⊢
        exact hs i buf hbuf
    · exact hs i buf hbuf
  | insertEnds i o exc =>
    dsimp only [step, act, Event.session] at hbuf ⊢
    split at hbuf
    · rw [buf?_finish] at hbuf
      contradiction
    · exact hs i buf hbuf

theorem answer_finish {s' : System} {out : IngestionSession × Reply × Effects} {r : Reply}
    (hr : (s'.finish i out).2 = some r) : (out.1, out.2.1) = ((s'.finish i out).1.sessions i, r) := by
  obtain rfl := Option.some.inj hr
  have hself : (s'.finish i out).1.sessions i = out.1 := Function.update_self ..
  rw [hself]

/-- A call that ends has the answer that the handler gives for a message about
its video. -/
theorem handled_save (hs : Serving s) {buf : VideoBuffer} (hbuf : (s.calls i).buf? = some buf)
    {s' : System} {today : String} {save : SaveOutcome} {r : Reply}
    (hr : (s'.finish i (h.saveVideo today save buf (s.sessions i))).2 = some r) :
    ∃ metadata today' save',
      let out := h.handleComplete today' save' metadata (s.sessions i)
      (out.1, out.2.1) =
        ((s'.finish i (h.saveVideo today save buf (s.sessions i))).1.sessions i, r) := by
  obtain ⟨metadata, hready⟩ := hs i buf hbuf
  refine ⟨metadata, today, save, ?_⟩
  dsimp only
  rw [handleComplete_of_ready hready]
  exact answer_finish hr

theorem handled_act (hs : Serving s) {r : Reply} (hr : (act h cwd s e).2 = some r) :
    Handled h (s.sessions e.session) ((step h cwd s e).sessions e.session, r) e := by
  cases e with
  | chunk i station? payload =>
    dsimp only [step, act, Event.session] at hr ⊢
    split at hr
    · exact answer_finish hr
    · contradiction
  | complete i metadata =>
    dsimp only [step, act, Event.session] at hr ⊢
    split at hr
    · split at hr
      · contradiction
      · next hready =>
        intro today save
        dsimp only
        rw [(handleComplete_of_not_ready hready today save).1]
        exact answer_finish hr
    · contradiction
  | failSave i today exc =>
    dsimp only [step, act, Event.session] at hr ⊢
    split at hr
    · next hcall => exact handled_save hs (by rw [hcall]; rfl) hr
    · next hcall => exact handled_save hs (by rw [hcall]; rfl) hr
    · contradiction
  | insertEnds i o exc =>
    dsimp only [step, act, Event.session] at hr ⊢
    split at hr
    · next hcall => exact handled_save hs (by rw [hcall]; rfl) hr
    · contradiction
  | openFile i today =>
    dsimp only [act] at hr
    split at hr <;> contradiction
  | writeBytes i count =>
    dsimp only [act] at hr
    split at hr <;> contradiction
  | closeFile i =>
    dsimp only [act] at hr
    split at hr
    · split at hr <;> contradiction
    · contradiction

/-- However the sessions, their threads and the inserts take turns, every answer
is that of the handler in the session that got the message. -/
theorem handled_run (disk : Disk Place UInt8) (events : List Event) (e : Event) {r : Reply}
    (hr : (act h cwd (run (step h cwd) { disk := disk } events) e).2 = some r) :
    Handled h ((run (step h cwd) { disk := disk } events).sessions e.session)
      ((step h cwd (run (step h cwd) { disk := disk } events) e).sessions e.session, r) e := by
  have hinit : Serving { disk := disk } := fun _ _ hbuf => by contradiction
  have hserving : Serving (run (step h cwd) { disk := disk } events) :=
    run_invariant (fun s e (hs : Serving s) => serving_step hs e) hinit events
  exact handled_act hserving hr

/-! ## The property -/

/-- Every row names a file with the video it was inserted for. -/
def RowsHold (cwd : Place) (s : System) : Prop :=
  ∀ video ∈ s.videos.rows, s.disk.read (resolve cwd video.row.filePath.toList) = some video.body

/-- The file that a call has opened. -/
def Call.save? : Call → Option Save
  | .writing save _ | .inserting save => some save
  | .idle | .opening _ => none

/-- The place that the event writes to. -/
def written? (h : VideoHandler) (cwd : Place) (s : System) : Event → Option Place
  | .openFile i today =>
    match s.calls i with
    | .opening buf => some (place h cwd today buf)
    | _ => none
  | .writeBytes i _ => (s.calls i).save?.map fun save => place h cwd save.today save.buf
  | _ => none

/-- The event writes nowhere else, and when it answers with an error, the file
that its call has opened is as it was before. -/
structure LeavesFiles (h : VideoHandler) (cwd : Place) (s : System) (e : Event) : Prop where
  elsewhere : ∀ p, written? h cwd s e ≠ some p → (step h cwd s e).disk.read p = s.disk.read p
  undone : ∀ reason, (act h cwd s e).2 = some (.error reason) →
    ∀ save, (s.calls e.session).save? = some save →
      (step h cwd s e).disk.read (place h cwd save.today save.buf) = save.before

/-- In the run the rows name the files with their videos at every time, and an
error leaves the files as they were. -/
structure Intact (h : VideoHandler) (cwd : Place) (disk : Disk Place UInt8)
    (events : List Event) : Prop where
  rows : ∀ pre, pre <+: events → RowsHold cwd (run (step h cwd) { disk := disk } pre)
  errors : AllSteps (step h cwd) (LeavesFiles h cwd) { disk := disk } events

/-- No row has the UUID, and no other call has opened a file for it. -/
structure Unused (s : System) (i uuid : Nat) : Prop where
  rows : ∀ video ∈ s.videos.rows, video.uuid ≠ uuid
  calls : ∀ j save, j ≠ i → (s.calls j).save? = some save →
    parseUuid save.buf.videoId ≠ some uuid

/-- A file is opened for an id that is a UUID and not in use, and after that
nothing fails. -/
def Accepted (s : System) : Event → Prop
  | .openFile i _ => ∀ buf, s.calls i = .opening buf →
    ∃ uuid, parseUuid buf.videoId = some uuid ∧ Unused s i uuid
  | .failSave i _ _ => (s.calls i).save? = none
  | .insertEnds i o _ => ∀ save, s.calls i = .inserting save → o = .ok
  | _ => True

/-! ## What a run keeps -/

/-- The row was inserted for an accepted id, and its file is there. -/
def Stored (h : VideoHandler) (cwd : Place) (s : System) (video : StoredVideo) : Prop :=
  ∃ today buf, parseUuid buf.videoId = some video.uuid ∧ video.row = h.rowOf today buf ∧
    s.disk.read (place h cwd today buf) = some video.body

/-- The opened files are for ids that are not in use, what was written is in
them, and so it is with the rows. -/
structure Sound (h : VideoHandler) (cwd : Place) (s : System) : Prop where
  opened : ∀ i save, (s.calls i).save? = some save →
    ∃ uuid, parseUuid save.buf.videoId = some uuid ∧ Unused s i uuid
  writing : ∀ i save pos, s.calls i = .writing save pos → pos ≤ save.buf.assemble.length ∧
    s.disk.Wrote (place h cwd save.today save.buf) save.file (save.buf.assemble.take pos)
  inserting : ∀ i save, s.calls i = .inserting save →
    s.disk.Wrote (place h cwd save.today save.buf) save.file save.buf.assemble
  rows : ∀ video ∈ s.videos.rows, Stored h cwd s video

variable {s' : System} {uuid : Nat} {c : Call} {buf : VideoBuffer}

theorem sound_init (disk : Disk Place UInt8) : Sound h cwd { disk := disk } where
  opened := fun _ _ h => by contradiction
  writing := fun _ _ _ h => by contradiction
  inserting := fun _ _ h => by contradiction
  rows := fun _ h => absurd h List.not_mem_nil

theorem Sound.rowsHold (hs : Sound h cwd s) : RowsHold cwd s := by
  intro video hvideo
  obtain ⟨today, buf, hbuf, hrow, hread⟩ := hs.rows video hvideo
  rw [hrow, ← place_eq (not_mem_of_parseUuid hbuf)]
  exact hread

/-- The ids of the opened files stay apart: the file of a call is for an id
that is not in use, or its row is inserted. -/
theorem Sound.opened_update (hs : Sound h cwd s) (hbuf : parseUuid buf.videoId = some uuid)
    (hunused : Unused s i uuid) (hcalls : s'.calls = Function.update s.calls i c)
    (hc : ∀ save, c.save? = some save → save.buf = buf)
    (hrows : ∀ video ∈ s'.videos.rows, video ∈ s.videos.rows ∨
      (c.save? = none ∧ video.uuid = uuid)) (j : Nat) (save : Save)
    (hsave : (s'.calls j).save? = some save) :
    ∃ n, parseUuid save.buf.videoId = some n ∧ Unused s' j n := by
  have hself : s'.calls i = c := by rw [hcalls, Function.update_self]
  have hother : ∀ {j}, j ≠ i → s'.calls j = s.calls j := fun hj => by
    rw [hcalls, Function.update_of_ne hj]
  by_cases hji : j = i
  · subst hji
    rw [hself] at hsave
    refine ⟨uuid, by rw [hc save hsave]; exact hbuf, fun video hvideo => ?_, fun k save' hk => ?_⟩
    · rcases hrows video hvideo with hvideo | ⟨hover, -⟩
      · exact hunused.rows video hvideo
      · rw [hover] at hsave
        cases hsave
    · rw [hother hk]
      exact hunused.calls k save' hk
  · rw [hother hji] at hsave
    obtain ⟨n, hn, hunusedn⟩ := hs.opened j save hsave
    have hnuuid : n ≠ uuid := by
      intro heq
      rw [heq] at hn
      exact hunused.calls j save hji hsave hn
    refine ⟨n, hn, fun video hvideo => ?_, fun k save' hk hsave' => ?_⟩
    · rcases hrows video hvideo with hvideo | ⟨-, huuid⟩
      · exact hunusedn.rows video hvideo
      · rw [huuid]
        exact hnuuid.symm
    · by_cases hki : k = i
      · subst hki
        rw [hself] at hsave'
        rw [hc save' hsave', hbuf]
        exact fun heq => hnuuid (Option.some.inj heq).symm
      · rw [hother hki] at hsave'
        exact hunusedn.calls k save' hk hsave'

/-- The call opens a file for an id that is not in use, or goes on with it,
and does nothing elsewhere. -/
theorem Sound.update (hs : Sound h cwd s) (hbuf : parseUuid buf.videoId = some uuid)
    (hunused : Unused s i uuid) (today : String) (hcalls : s'.calls = Function.update s.calls i c)
    (hc : ∀ save, c.save? = some save → save.buf = buf)
    (hwrote : ∀ q, q ≠ place h cwd today buf → ∀ n written, s.disk.Wrote q n written →
      s'.disk.Wrote q n written)
    (hread : ∀ q, q ≠ place h cwd today buf → s'.disk.read q = s.disk.read q)
    (hwriting : ∀ save pos, c = .writing save pos → pos ≤ save.buf.assemble.length ∧
      s'.disk.Wrote (place h cwd save.today save.buf) save.file (save.buf.assemble.take pos))
    (hinserting : ∀ save, c = .inserting save →
      s'.disk.Wrote (place h cwd save.today save.buf) save.file save.buf.assemble)
    (hrows : ∀ video ∈ s'.videos.rows, video ∈ s.videos.rows ∨
      (c.save? = none ∧ video.uuid = uuid ∧ Stored h cwd s' video)) : Sound h cwd s' := by
  have hself : s'.calls i = c := by rw [hcalls, Function.update_self]
  have hother : ∀ {j}, j ≠ i → s'.calls j = s.calls j := fun hj => by
    rw [hcalls, Function.update_of_ne hj]
  -- the files of the other calls are elsewhere
  have hne : ∀ {j save}, j ≠ i → (s.calls j).save? = some save →
      place h cwd save.today save.buf ≠ place h cwd today buf := by
    intro j save hj hsave
    obtain ⟨n, hn, -⟩ := hs.opened j save hsave
    refine place_ne hn hbuf fun heq => hunused.calls j save hj hsave ?_
    rw [hn, heq]
  refine ⟨hs.opened_update hbuf hunused hcalls hc fun video hvideo => ?_,
    fun j save pos hj => ?_, fun j save hj => ?_, fun video hvideo => ?_⟩
  · exact (hrows video hvideo).imp id fun hover => ⟨hover.1, hover.2.1⟩
  · by_cases hji : j = i
    · subst hji
      exact hwriting save pos (hself.symm.trans hj)
    · rw [hother hji] at hj
      obtain ⟨hpos, hw⟩ := hs.writing j save pos hj
      have hsave : (s.calls j).save? = some save := by
        rw [hj]
        rfl
      exact ⟨hpos, hwrote _ (hne hji hsave) save.file _ hw⟩
  · by_cases hji : j = i
    · subst hji
      exact hinserting save (hself.symm.trans hj)
    · rw [hother hji] at hj
      have hsave : (s.calls j).save? = some save := by
        rw [hj]
        rfl
      exact hwrote _ (hne hji hsave) save.file _ (hs.inserting j save hj)
  · rcases hrows video hvideo with hvideo | ⟨-, -, hstored⟩
    · obtain ⟨day, buf', hbuf', hrow, hreads⟩ := hs.rows video hvideo
      refine ⟨day, buf', hbuf', hrow, ?_⟩
      rw [hread _ (place_ne hbuf' hbuf (hunused.rows video hvideo))]
      exact hreads
    · exact hstored

/-- A call goes on that has opened no file. -/
theorem Sound.keep (hs : Sound h cwd s) (hcalls : s'.calls = Function.update s.calls i c)
    (hc : c.save? = none) (hdisk : s'.disk = s.disk) (hvideos : s'.videos = s.videos) :
    Sound h cwd s' := by
  have hsave : ∀ {j save}, (s'.calls j).save? = some save → s'.calls j = s.calls j := by
    intro j save hj
    by_cases hji : j = i
    · rw [hji, hcalls, Function.update_self, hc] at hj
      contradiction
    · rw [hcalls, Function.update_of_ne hji]
  refine ⟨fun j save hj => ?_, fun j save pos hj => ?_, fun j save hj => ?_, fun video hvideo => ?_⟩
  · rw [hsave hj] at hj
    obtain ⟨n, hn, hunused⟩ := hs.opened j save hj
    refine ⟨n, hn, fun video hvideo => ?_, fun k save' hk hsave' => ?_⟩
    · rw [hvideos] at hvideo
      exact hunused.rows video hvideo
    · rw [hsave hsave'] at hsave'
      exact hunused.calls k save' hk hsave'
  · have hcall : s'.calls j = s.calls j := @hsave j save (by rw [hj]; rfl)
    rw [hdisk]
    exact hs.writing j save pos (hcall.symm.trans hj)
  · have hcall : s'.calls j = s.calls j := @hsave j save (by rw [hj]; rfl)
    rw [hdisk]
    exact hs.inserting j save (hcall.symm.trans hj)
  · rw [hvideos] at hvideo
    obtain ⟨day, buf', hbuf', hrow, hreads⟩ := hs.rows video hvideo
    refine ⟨day, buf', hbuf', hrow, ?_⟩
    rw [hdisk]
    exact hreads

theorem insertVideo_ok {row : VideoRow} {body : List UInt8} {videos : Table StoredVideo.uuid}
    (hrow : parseUuid row.videoId = some uuid) (hunused : ∀ video ∈ videos.rows, video.uuid ≠ uuid)
    (exc : String) :
    insertVideo .ok exc row body videos = (none, videos.insert ⟨uuid, row, body⟩) := by
  have hfind : videos.find? uuid = none := Table.find?_eq_none_iff.mpr hunused
  rw [insertVideo, hrow]
  dsimp only
  rw [hfind]
  rfl

theorem Sound.openFile (hs : Sound h cwd s) (hcall : s.calls i = .opening buf)
    (hbuf : parseUuid buf.videoId = some uuid) (hunused : Unused s i uuid) (today : String) :
    Sound h cwd (step h cwd s (.openFile i today)) := by
  simp only [step, act, hcall]
  refine hs.update hbuf hunused today rfl (fun save hsave => (Option.some.inj hsave) ▸ rfl)
    (fun q hq n written hw => hw.openWrite_of_ne hq)
    (fun q hq => Disk.read_openWrite_of_ne hq) ?_ nofun fun video hvideo => Or.inl hvideo
  intro save pos hwriting
  obtain ⟨rfl, rfl⟩ := Call.writing.inj hwriting
  exact ⟨Nat.zero_le _, Disk.wrote_openWrite _ _⟩

theorem Sound.writeBytes (hs : Sound h cwd s) {save : Save} {pos : Nat}
    (hcall : s.calls i = .writing save pos) (count : Nat) :
    Sound h cwd (step h cwd s (.writeBytes i count)) := by
  obtain ⟨uuid, hbuf, hunused⟩ := hs.opened i save (by rw [hcall]; rfl)
  obtain ⟨hpos, hw⟩ := hs.writing i save pos hcall
  simp only [step, act, hcall]
  refine hs.update hbuf hunused save.today rfl (fun save hsave => (Option.some.inj hsave) ▸ rfl)
    (fun q hq n written hw' => hw'.write_of_ne hw.names hq _ _)
    (fun q hq => Disk.read_write_of_ne hw.names hq _ _) ?_ nofun
    fun video hvideo => Or.inl hvideo
  intro save' pos' hwriting
  obtain ⟨rfl, rfl⟩ := Call.writing.inj hwriting
  refine ⟨Nat.min_le_right _ _, ?_⟩
  rw [← List.take_eq_take_min]
  exact hw.write hpos count

/-- The file that is closed has all bytes in it. -/
theorem Sound.closeFile (hs : Sound h cwd s) {save : Save}
    (hcall : s.calls i = .writing save save.buf.assemble.length) :
    Sound h cwd (s.setCall i (.inserting save)) := by
  obtain ⟨uuid, hbuf, hunused⟩ := hs.opened i save (by rw [hcall]; rfl)
  obtain ⟨-, hw⟩ := hs.writing i save _ hcall
  rw [List.take_length] at hw
  refine hs.update hbuf hunused save.today rfl
    (fun save hsave => (Option.some.inj hsave) ▸ rfl) (fun _ _ _ _ hw => hw)
    (fun _ _ => rfl) nofun ?_ fun video hvideo => Or.inl hvideo
  intro save' hinserting
  obtain rfl := Call.inserting.inj hinserting
  exact hw

/-- A call whose file is written gets its row. -/
theorem Sound.insert (hs : Sound h cwd s) {save : Save} (hcall : s.calls i = .inserting save)
    (hbuf : parseUuid save.buf.videoId = some uuid) (hunused : Unused s i uuid)
    (sessions : Nat → IngestionSession) :
    Sound h cwd
      { s with
        videos := s.videos.insert ⟨uuid, h.rowOf save.today save.buf, save.buf.assemble⟩
        sessions := sessions
        calls := Function.update s.calls i .idle } := by
  have hw := hs.inserting i save hcall
  refine hs.update hbuf hunused save.today rfl nofun (fun _ _ _ _ hw => hw) (fun _ _ => rfl)
    nofun nofun fun video hvideo => ?_
  rcases Table.mem_insert.mp hvideo with hvideo | ⟨hvideo, -⟩
  · exact Or.inl hvideo
  · rw [hvideo]
    exact Or.inr ⟨rfl, rfl, save.today, save.buf, hbuf, rfl, hw.read⟩

theorem sound_step (hs : Sound h cwd s) (he : Accepted s e) : Sound h cwd (step h cwd s e) := by
  cases e with
  | chunk i station? payload =>
    dsimp only [step, act]
    split
    · exact hs.keep rfl rfl rfl rfl
    · exact hs
  | complete i metadata =>
    dsimp only [step, act]
    split
    · split
      · exact hs.keep rfl rfl rfl rfl
      · exact hs.keep rfl rfl rfl rfl
    · exact hs
  | openFile i today =>
    cases hcall : s.calls i with
    | opening buf =>
      obtain ⟨uuid, hbuf, hunused⟩ := he buf hcall
      exact hs.openFile hcall hbuf hunused today
    | _ => simpa only [step, act, hcall] using hs
  | writeBytes i count =>
    cases hcall : s.calls i with
    | writing save pos => exact hs.writeBytes hcall count
    | _ => simpa only [step, act, hcall] using hs
  | failSave i today exc =>
    dsimp only [step, act]
    split
    · exact hs.keep rfl rfl rfl rfl
    · exact hs.keep rfl rfl rfl rfl
    · exact hs
  | closeFile i =>
    dsimp only [step, act]
    split
    · next save pos hcall =>
      split
      · next hpos => exact hs.closeFile (hpos ▸ hcall)
      · exact hs
    · exact hs
  | insertEnds i o exc =>
    dsimp only [step, act]
    split
    · next save hcall =>
      obtain rfl := he save hcall
      obtain ⟨uuid, hbuf, hunused⟩ := hs.opened i save (by rw [hcall]; rfl)
      have hrow : parseUuid (h.rowOf save.today save.buf).videoId = some uuid := hbuf
      rw [insertVideo_ok hrow hunused.rows]
      exact hs.insert hcall hbuf hunused _
    · exact hs

/-- An event writes to one place at most. -/
theorem read_step (hs : Sound h cwd s) {p : Place} (hp : written? h cwd s e ≠ some p) :
    (step h cwd s e).disk.read p = s.disk.read p := by
  cases e with
  | openFile i today =>
    dsimp only [step, act]
    split
    · next buf hcall =>
      simp only [written?, hcall] at hp
      exact Disk.read_openWrite_of_ne fun heq => hp (congrArg some heq.symm)
    · rfl
  | writeBytes i count =>
    dsimp only [step, act]
    split
    · next save pos hcall =>
      obtain ⟨-, hw⟩ := hs.writing i save pos hcall
      simp only [written?, hcall, Call.save?, Option.map_some] at hp
      exact Disk.read_write_of_ne hw.names (fun heq => hp (congrArg some heq.symm)) _ _
    · rfl
  | complete i metadata =>
    dsimp only [step, act]
    split
    · split <;> rfl
    · rfl
  | closeFile i =>
    dsimp only [step, act]
    split
    · split <;> rfl
    · rfl
  | failSave i today exc =>
    dsimp only [step, act]
    split <;> rfl
  | _ =>
    dsimp only [step, act]
    split <;> rfl

/-- Who has opened a file is not answered with an error. -/
theorem not_error_of_save (hs : Sound h cwd s) (he : Accepted s e) {save : Save}
    (hsave : (s.calls e.session).save? = some save) (reason : String) :
    (act h cwd s e).2 ≠ some (.error reason) := by
  cases e with
  | failSave i today exc =>
    have hnone : (s.calls i).save? = none := he
    have hsome : (s.calls i).save? = some save := hsave
    rw [hnone] at hsome
    contradiction
  | insertEnds i o exc =>
    dsimp only [act]
    split
    · next save' hcall =>
      obtain rfl := he save' hcall
      obtain ⟨uuid, hbuf, hunused⟩ := hs.opened i save' (by rw [hcall]; rfl)
      have hrow : parseUuid (h.rowOf save'.today save'.buf).videoId = some uuid := hbuf
      rw [insertVideo_ok hrow hunused.rows]
      simp [System.finish, saveOutcome, VideoHandler.saveVideo]
    · simp
  | chunk i station? payload =>
    dsimp only [act]
    split
    · next hcall =>
      have hsome : (s.calls i).save? = some save := hsave
      rw [hcall] at hsome
      contradiction
    · simp
  | complete i metadata =>
    dsimp only [act]
    split
    · next hcall =>
      have hsome : (s.calls i).save? = some save := hsave
      rw [hcall] at hsome
      contradiction
    · simp
  | closeFile i =>
    dsimp only [act]
    split
    · split <;> simp
    · simp
  | _ =>
    dsimp only [act]
    split <;> simp

theorem leavesFiles_of_sound (hs : Sound h cwd s) (he : Accepted s e) : LeavesFiles h cwd s e where
  elsewhere := fun _ hp => read_step hs hp
  undone := fun reason herror _ hsave => absurd herror (not_error_of_save hs he hsave reason)

/-- In every run whose steps meet the condition, the rows name the files with
their videos, and an error leaves the files as they were. -/
theorem intact_of_accepted (h : VideoHandler) (cwd : Place) (disk : Disk Place UInt8)
    (events : List Event) (haccepted : AllSteps (step h cwd) Accepted { disk := disk } events) :
    Intact h cwd disk events where
  rows := by
    rintro pre ⟨post, rfl⟩
    exact (run_invariant_of_allSteps (fun _ _ => sound_step) (sound_init disk)
      (allSteps_append.mp haccepted).1).rowsHold
  errors :=
    haccepted.imp (Sound h cwd) (fun _ _ => sound_step)
      (fun _ _ hs he => leavesFiles_of_sound hs he) (sound_init disk)

/-! ## Ids that the insert does not take -/

def gateway : VideoHandler where
  storageRoot := "/data/storage"
  parseIso := fun _ => none
  text := fun _ => ""

/-- A video of one chunk is sent and acknowledged. -/
def sent (i : Nat) (videoId : String) (body : List UInt8) : List Event :=
  [.chunk i (some "s1")
      (.chunk { videoId := videoId, chunkSeq := 0, totalChunks := 1, stationName := "north" } body),
    .complete i (.obj [("video_id", .str videoId)])]

/-- Its file is written. -/
def saved (i : Nat) (body : List UInt8) : List Event :=
  [.openFile i "2026-01-01", .writeBytes i body.length, .closeFile i]

def videoId : String := "00000000-0000-0000-0000-000000000001"

/-- One upload. -/
def uploaded : List Event :=
  sent 0 videoId [1, 2] ++ saved 0 [1, 2] ++ [.insertEnds 0 .ok ""]

/-- The UUID of the file that is about to be opened. -/
def Call.uuid? : Call → Option Nat
  | .opening buf => parseUuid buf.videoId
  | _ => none

/-- Two uploads at the same time: the second file is opened while the first
is written, and the second insert ends before the first. -/
def twoUploads : List Event :=
  sent 0 videoId [1, 2] ++ [.openFile 0 "2026-01-01", .writeBytes 0 1] ++
    sent 1 "00000000-0000-0000-0000-000000000002" [3, 4] ++
    [.openFile 1 "2026-01-01", .writeBytes 1 2, .writeBytes 0 1, .closeFile 1,
      .insertEnds 1 .ok "", .closeFile 0, .insertEnds 0 .ok ""]

/-- Only the sessions of the run can have a file open. -/
theorem unused_run {disk : Disk Place UInt8} {events : List Event}
    (hrows : ∀ video ∈ (run (step h cwd) { disk := disk } events).videos.rows, video.uuid ≠ uuid)
    (hcalls : ∀ e ∈ events, e.session ≠ i →
      ∀ save ∈ ((run (step h cwd) { disk := disk } events).calls e.session).save?,
        parseUuid save.buf.videoId ≠ some uuid) :
    Unused (run (step h cwd) { disk := disk } events) i uuid := by
  refine ⟨hrows, fun j save hj hsave => ?_⟩
  by_cases hmem : ∃ e ∈ events, e.session = j
  · obtain ⟨e, he, rfl⟩ := hmem
    exact hcalls e he hj save hsave
  · have hothers : ∀ e ∈ events, e.session ≠ j := fun e he heq => hmem ⟨e, he, heq⟩
    rw [calls_run_of_ne hothers] at hsave
    contradiction

theorem accepted_openFile {disk : Disk Place UInt8} {events : List Event} {today : String}
    (uuid : Nat)
    (huuid : ((run (step h cwd) { disk := disk } events).calls i).uuid? = some uuid)
    (hunused : Unused (run (step h cwd) { disk := disk } events) i uuid) :
    Accepted (run (step h cwd) { disk := disk } events) (.openFile i today) := by
  intro buf hbuf
  rw [hbuf] at huuid
  exact ⟨uuid, huuid, hunused⟩

theorem accepted_twoUploads :
    AllSteps (step gateway []) Accepted { disk := Disk.empty } twoUploads := by
  have hfirst : Accepted (run (step gateway []) { disk := Disk.empty } (twoUploads.take 2))
      (.openFile 0 "2026-01-01") :=
    accepted_openFile 1 (by decide +kernel)
      (unused_run (by decide +kernel) (by decide +kernel))
  have hsecond : Accepted (run (step gateway []) { disk := Disk.empty } (twoUploads.take 6))
      (.openFile 1 "2026-01-01") :=
    accepted_openFile 2 (by decide +kernel)
      (unused_run (by decide +kernel) (by decide +kernel))
  exact ⟨trivial, trivial, hfirst, trivial, trivial, trivial, hsecond, trivial, trivial, trivial,
    fun _ _ => rfl, trivial, fun _ _ => rfl, trivial⟩

/-- Both videos are kept. -/
theorem intact_twoUploads : Intact gateway [] Disk.empty twoUploads ∧
    (run (step gateway []) { disk := Disk.empty } twoUploads).videos.rows.map StoredVideo.uuid =
      [2, 1] :=
  ⟨intact_of_accepted gateway [] Disk.empty twoUploads accepted_twoUploads, by decide +kernel⟩

instance (s : System) : Decidable (RowsHold cwd s) :=
  inferInstanceAs (Decidable (∀ video ∈ s.videos.rows, _))

/-- An error after which the file is not as it was. -/
theorem not_intact_of_left {disk : Disk Place UInt8} {pre : List Event} {reason : String}
    (hreply : (act h cwd (run (step h cwd) { disk := disk } pre) e).2 = some (.error reason))
    (hsave : ((run (step h cwd) { disk := disk } pre).calls e.session).save?.isSome = true)
    (hleft : ∀ save ∈ ((run (step h cwd) { disk := disk } pre).calls e.session).save?,
      (step h cwd (run (step h cwd) { disk := disk } pre) e).disk.read
        (place h cwd save.today save.buf) ≠ save.before) :
    ¬ Intact h cwd disk (pre ++ [e]) := by
  intro hintact
  obtain ⟨save, hsave⟩ := Option.isSome_iff_exists.mp hsave
  have hlast := (allSteps_append.mp hintact.errors).2.1
  exact hleft save hsave (hlast.undone reason hreply save hsave)

/-- The file of a row has another video when its id is sent again.  An id that
is no UUID and an insert that fails leave a file behind. -/
theorem not_intact_rejected :
    ¬ Intact gateway [] Disk.empty (uploaded ++ sent 1 videoId [3] ++ saved 1 [3]) ∧
      ¬ Intact gateway [] Disk.empty
        (sent 0 "video-1" [1] ++ saved 0 [1] ++
          [.insertEnds 0 .ok "badly formed hexadecimal UUID string"]) ∧
      ¬ Intact gateway [] Disk.empty
        (sent 0 videoId [1] ++ saved 0 [1] ++ [.insertEnds 0 (.failed "down") ""]) := by
  refine ⟨fun hintact => ?_, ?_, ?_⟩
  · exact absurd (hintact.rows _ List.prefix_rfl) (by decide +kernel)
  · have hreply : (act gateway [] (run (step gateway []) { disk := Disk.empty }
        (sent 0 "video-1" [1] ++ saved 0 [1]))
        (.insertEnds 0 .ok "badly formed hexadecimal UUID string")).2 =
        some (.error "Video save failed: badly formed hexadecimal UUID string") := by
      decide +kernel
    exact not_intact_of_left hreply (by decide +kernel) (by decide +kernel)
  · have hreply : (act gateway [] (run (step gateway []) { disk := Disk.empty }
        (sent 0 videoId [1] ++ saved 0 [1])) (.insertEnds 0 (.failed "down") "")).2 =
        some (.error "Video save failed: down") := by
      decide +kernel
    exact not_intact_of_left hreply (by decide +kernel) (by decide +kernel)

end DustMonitoring.Ingestion.VideoFiles
