import DustMonitoring.Ingestion.VideoFiles

/-!
# Where the files of the videos end up

The files of a station and a day have a directory of their own, and the name
of a file in it is made of the video id that the sender has chosen.

* `confined_iff`: in a run every file is opened inside its directory, and the
  files of different ids are different, exactly when no id leads away from the
  directory, and no two of them come to the same names.
* `idsLeadInto_of_noSlash`: ids without a slash are such ids.

`handle_chunk` takes every text for an id.
-/

namespace DustMonitoring.Ingestion.VideoFiles

open DustMonitoring.Lib

/-- The directory of the station and the day. -/
def dirPath (h : VideoHandler) (today stationId : String) : String :=
  let root := h.storageRoot
  s!"{root}/videos/{stationId}/{today}"

/-- What it names. -/
def directory (h : VideoHandler) (cwd : Place) (today stationId : String) : Place :=
  resolve cwd (dirPath h today stationId).toList

/-! ## The ids -/

/-- The names of the directory that the way to the file has left, all of them
if the id is absolute. -/
def left (dir : Place) (videoId : String) : Place :=
  if videoId.toList.head? = some '/' then dir else (route (fileName videoId)).left dir

/-- The id leads into the directory: what it leaves of the directory, it comes
back through. -/
def LeadsInto (dir : Place) (videoId : String) : Prop :=
  IsInside (left dir videoId) (route (fileName videoId)).downs

instance (dir : Place) (videoId : String) : Decidable (LeadsInto dir videoId) :=
  inferInstanceAs (Decidable (IsInside _ _))

/-- The names from the directory to the file. -/
def names (dir : Place) (videoId : String) : List Name :=
  (route (fileName videoId)).downs.drop (left dir videoId).length

section NoSlash

variable {dir : Place} {videoId : String} (hid : '/' ∉ videoId.toList)
include hid

theorem left_of_noSlash : left dir videoId = [] := by
  have hhead : videoId.toList.head? ≠ some '/' := fun heq => hid (List.mem_of_head? heq)
  rw [left, if_neg hhead, route_of_plain (plain_fileName hid)]
  simp [Route.left]

/-- An id without a slash leads into every directory. -/
theorem leadsInto_of_noSlash : LeadsInto dir videoId := by
  rw [LeadsInto, left_of_noSlash hid, route_of_plain (plain_fileName hid)]
  exact ⟨List.nil_prefix, List.cons_ne_nil _ _⟩

theorem names_of_noSlash : names dir videoId = [fileName videoId] := by
  rw [names, left_of_noSlash hid, route_of_plain (plain_fileName hid)]
  rfl

end NoSlash

variable {h : VideoHandler} {cwd : Place} {today : String} {buf : VideoBuffer}

theorem filePath_eq : (h.rowOf today buf).filePath.toList =
    (dirPath h today buf.stationId).toList ++ '/' :: fileName buf.videoId := by
  simp [VideoHandler.rowOf, dirPath, fileName, String.toList_append, toString]

theorem place_of_relative (hid : buf.videoId.toList.head? ≠ some '/') :
    place h cwd today buf =
      (route (fileName buf.videoId)).target (directory h cwd today buf.stationId) := by
  have hdir : (dirPath h today buf.stationId).toList ≠ [] := by
    simp [dirPath, String.toList_append, toString]
  rw [place, filePath, if_neg hid, filePath_eq, resolve_append hdir]
  rfl

theorem place_of_absolute (hid : buf.videoId.toList.head? = some '/') :
    place h cwd today buf = (route (fileName buf.videoId)).downs := by
  have hne : buf.videoId.toList ≠ [] := fun hnil => by simp [hnil] at hid
  have hpath : (buf.videoId ++ ".bin").toList = fileName buf.videoId := String.toList_append
  have hhead : (fileName buf.videoId).head? = some '/' := by
    rw [fileName, List.head?_append_of_ne_nil _ hne, hid]
  rw [place, filePath, if_pos hid, hpath, resolve_absolute hhead]

theorem isInside_place_iff :
    IsInside (directory h cwd today buf.stationId) (place h cwd today buf) ↔
      LeadsInto (directory h cwd today buf.stationId) buf.videoId := by
  unfold LeadsInto left
  split
  · next hid => rw [place_of_absolute hid]
  · next hid => rw [place_of_relative hid, isInside_target_iff]

theorem place_of_leadsInto
    (hid : LeadsInto (directory h cwd today buf.stationId) buf.videoId) :
    place h cwd today buf = directory h cwd today buf.stationId ++
      names (directory h cwd today buf.stationId) buf.videoId := by
  unfold LeadsInto left at hid
  unfold names left
  split
  · next habs =>
    rw [if_pos habs] at hid
    obtain ⟨rest, hrest⟩ := hid.1
    rw [place_of_absolute habs, ← hrest, List.drop_left]
  · next hrel =>
    rw [if_neg hrel] at hid
    rw [place_of_relative hrel, target_of_isInside hid]

/-! ## The runs -/

/-- The day and the video of the file that the event opens. -/
def opened (s : System) : Event → List (String × VideoBuffer)
  | .openFile i today =>
    match s.calls i with
    | .opening buf => [(today, buf)]
    | _ => []
  | _ => []

/-- The files that the run opens. -/
def openings (h : VideoHandler) (cwd : Place) (disk : Disk Place UInt8) (events : List Event) :
    List (String × VideoBuffer) :=
  outputs (step h cwd) opened { disk := disk } events

/-- A path names what it named before unless a file is opened there. -/
theorem names_step {s : System} {e : Event} {p : Place}
    (hp : ∀ o ∈ opened s e, place h cwd o.1 o.2 ≠ p) :
    (step h cwd s e).disk.names p = s.disk.names p := by
  cases e with
  | openFile i today =>
    dsimp only [step, act]
    split
    · next buf hcall =>
      simp only [opened, hcall, List.mem_singleton, forall_eq] at hp
      exact Disk.names_openWrite_of_ne hp.symm
    · rfl
  | complete i metadata =>
    dsimp only [step, act]
    split
    · split <;> rfl
    · rfl
  | closeFile i =>
    dsimp only [step, act]
    split
    · split <;> rfl
    · rfl
  | failSave i today exc =>
    dsimp only [step, act]
    split <;> rfl
  | _ =>
    dsimp only [step, act]
    split <;> rfl

/-- And so it is over a run. -/
theorem names_run {s : System} {events : List Event} {p : Place}
    (hp : ∀ o ∈ outputs (step h cwd) opened s events, place h cwd o.1 o.2 ≠ p) :
    (run (step h cwd) s events).disk.names p = s.disk.names p := by
  induction events generalizing s with
  | nil => rfl
  | cons e events ih =>
    have hstep := names_step fun o ho => hp o (List.mem_append_left _ ho)
    have hrun := ih fun o ho => hp o (List.mem_append_right _ ho)
    exact hrun.trans hstep

/-- Every file of the run is opened inside the directory of its station and
day, and different ids have different files there. -/
structure Confined (h : VideoHandler) (cwd : Place) (disk : Disk Place UInt8)
    (events : List Event) : Prop where
  inside : ∀ o ∈ openings h cwd disk events,
    IsInside (directory h cwd o.1 o.2.stationId) (place h cwd o.1 o.2)
  apart : ∀ o ∈ openings h cwd disk events, ∀ o' ∈ openings h cwd disk events,
    o.1 = o'.1 → o.2.stationId = o'.2.stationId → o.2.videoId ≠ o'.2.videoId →
    place h cwd o.1 o.2 ≠ place h cwd o'.1 o'.2

/-- What is new on the disk after such a run is inside one of the directories. -/
theorem Confined.isInside_of_new {disk : Disk Place UInt8} {events : List Event}
    (hconf : Confined h cwd disk events) {p : Place}
    (hp : (run (step h cwd) { disk := disk } events).disk.names p ≠ disk.names p) :
    ∃ today stationId, IsInside (directory h cwd today stationId) p := by
  by_contra hnone
  push Not at hnone
  exact hp (names_run fun o ho heq => hnone _ _ (heq ▸ hconf.inside o ho))

/-- Every id that a file is opened for leads into the directory, and different
ids lead to different names in it. -/
structure IdsLeadInto (h : VideoHandler) (cwd : Place) (disk : Disk Place UInt8)
    (events : List Event) : Prop where
  leadsInto : ∀ o ∈ openings h cwd disk events,
    LeadsInto (directory h cwd o.1 o.2.stationId) o.2.videoId
  names_ne : ∀ o ∈ openings h cwd disk events, ∀ o' ∈ openings h cwd disk events,
    o.1 = o'.1 → o.2.stationId = o'.2.stationId → o.2.videoId ≠ o'.2.videoId →
    names (directory h cwd o.1 o.2.stationId) o.2.videoId ≠
      names (directory h cwd o.1 o.2.stationId) o'.2.videoId

/-- Ids without a slash are such ids. -/
theorem idsLeadInto_of_noSlash {disk : Disk Place UInt8} {events : List Event}
    (hids : ∀ o ∈ openings h cwd disk events, '/' ∉ o.2.videoId.toList) :
    IdsLeadInto h cwd disk events where
  leadsInto := fun o ho => leadsInto_of_noSlash (hids o ho)
  names_ne := by
    intro o ho o' ho' _ _ hne
    rw [names_of_noSlash (hids o ho), names_of_noSlash (hids o' ho')]
    intro heq
    apply hne
    exact String.toList_inj.mp (List.append_cancel_right (List.singleton_inj.mp heq))

/-- The names of two ids tell the files of one directory apart. -/
theorem place_ne_iff {buf' : VideoBuffer} (hstation : buf.stationId = buf'.stationId)
    (hid : LeadsInto (directory h cwd today buf.stationId) buf.videoId)
    (hid' : LeadsInto (directory h cwd today buf'.stationId) buf'.videoId) :
    place h cwd today buf ≠ place h cwd today buf' ↔
      names (directory h cwd today buf.stationId) buf.videoId ≠
        names (directory h cwd today buf.stationId) buf'.videoId := by
  rw [place_of_leadsInto hid, place_of_leadsInto hid', hstation, ne_eq,
    List.append_cancel_left_eq]

/-- The files of a run stay in their directories and apart from each other
exactly when the ids that were opened lead into the directories and to names
of their own. -/
theorem confined_iff (h : VideoHandler) (cwd : Place) (disk : Disk Place UInt8)
    (events : List Event) :
    Confined h cwd disk events ↔ IdsLeadInto h cwd disk events := by
  have hleads : (∀ o ∈ openings h cwd disk events,
      IsInside (directory h cwd o.1 o.2.stationId) (place h cwd o.1 o.2)) ↔
      ∀ o ∈ openings h cwd disk events,
        LeadsInto (directory h cwd o.1 o.2.stationId) o.2.videoId :=
    forall₂_congr fun _ _ => isInside_place_iff
  constructor
  · intro hconf
    have hin := hleads.mp hconf.inside
    refine ⟨hin, fun o ho o' ho' hday hstation hne => ?_⟩
    obtain ⟨today, buf⟩ := o
    obtain ⟨today', buf'⟩ := o'
    obtain rfl : today = today' := hday
    exact (place_ne_iff hstation (hin _ ho) (hin _ ho')).mp
      (hconf.apart _ ho _ ho' rfl hstation hne)
  · intro hids
    have hin := hids.leadsInto
    refine ⟨hleads.mpr hin, fun o ho o' ho' hday hstation hne => ?_⟩
    obtain ⟨today, buf⟩ := o
    obtain ⟨today', buf'⟩ := o'
    obtain rfl : today = today' := hday
    exact (place_ne_iff hstation (hin _ ho) (hin _ ho')).mpr
      (hids.names_ne _ ho _ ho' rfl hstation hne)

/-- An id that goes up and one that begins with a slash write outside of the
directory, and `a` and `./a` are one file. -/
theorem not_confined_climbing :
    ¬ Confined gateway [] Disk.empty (sent 0 "../../../a" [1] ++ saved 0 [1]) ∧
      ¬ Confined gateway [] Disk.empty (sent 0 "/etc/a" [1] ++ saved 0 [1]) ∧
      ¬ Confined gateway [] Disk.empty
        (sent 0 "a" [1] ++ saved 0 [1] ++ sent 1 "./a" [2] ++ saved 1 [2]) := by
  refine ⟨fun hconf => ?_, fun hconf => ?_, fun hconf => ?_⟩
  · exact absurd hconf.inside (by decide +kernel)
  · exact absurd hconf.inside (by decide +kernel)
  · exact absurd hconf.apart (by decide +kernel)

end DustMonitoring.Ingestion.VideoFiles
