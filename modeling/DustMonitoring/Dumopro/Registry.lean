import DustMonitoring.Dumopro.Buckets
import DustMonitoring.Lib.Query
import DustMonitoring.Lib.Table

/-!
# The stations in Redis

What the poller and the API of Dumopro share in Redis about the stations:
the list of the stations, the ids of stations that were removed, the
conflicts that wait for a decision of the user, and the keys under which
the station tasks keep their data.  `keys.py` writes a key as a text;
`delete_station_data` deletes by patterns over these texts, and what a
pattern matches is up to Redis (`glob`).

Redis does not know which station task wrote a key.  `Entry.stationId` is
the `station_id` it was written under; nothing of the source reads it.

* `getRemovedStationId_setRemovedStationId` and the lemmas beside it say
  what an operation does to the other parts.
-/

namespace DustMonitoring.Dumopro

open DustMonitoring.Lib

/-- `StationInfo`; the status and the location are left out. -/
structure StationInfo where
  stationId : String
  stationName : String
deriving DecidableEq, Repr

/-! ## Keys -/

/-- The text of a unit in a key. -/
def BucketUnit.text : BucketUnit → String
  | .hour => "hour"
  | .day => "day"
  | .week => "week"
  | .month => "month"

/-- A key of the data of a station. -/
inductive DataKey where
  | cursor
  | liveRaw (unit : BucketUnit) (bkey : String)
  | liveStats (unit : BucketUnit) (bkey : String)
  | frozen (unit : BucketUnit) (bkey : String)
  | frozenIndex (unit : BucketUnit)
deriving DecidableEq, Repr

/-- The functions `cursor`, `live_raw`, `live_stats`, `frozen` and
`frozen_index` of `keys.py`. -/
def DataKey.text (station : String) : DataKey → String
  | .cursor => "cursor:" ++ station
  | .liveRaw unit bkey => "live:raw:" ++ station ++ ":" ++ unit.text ++ ":" ++ bkey
  | .liveStats unit bkey =>
    "live:stats:" ++ station ++ ":" ++ unit.text ++ ":" ++ bkey
  | .frozen unit bkey => "frozen:" ++ station ++ ":" ++ unit.text ++ ":" ++ bkey
  | .frozenIndex unit => "frozen:index:" ++ station ++ ":" ++ unit.text

/-- A key that is there, and the id it was written under. -/
structure Entry where
  station : String
  key : DataKey
  stationId : String
deriving DecidableEq, Repr

/-- The text of the key. -/
def Entry.text (e : Entry) : String := e.key.text e.station

/-! ## Operations -/

/-- The hash under `pending_conflict:{name}`; `detected_at` is left out. -/
structure Conflict where
  oldId : String
  newId : String
deriving DecidableEq, Repr

structure Registry where
  stations : List StationInfo := []
  removed : String → Option String := fun _ => none
  conflict : String → Option Conflict := fun _ => none
  data : List Entry := []

/-- What a station task does to its keys. -/
inductive TaskWrite where
  | addLiveRaw (unit : BucketUnit) (bkey : String)
  | setLiveStats (unit : BucketUnit) (bkey : String)
  | freezeBucket (unit : BucketUnit) (bkey : String)
  | setCursor
deriving DecidableEq, Repr

namespace Registry

/-- `set_stations`. -/
def setStations (r : Registry) (stations : List StationInfo) : Registry :=
  { r with
    stations := stations }

/-- `set_removed_station_id`. -/
def setRemovedStationId (r : Registry) (name stationId : String) : Registry :=
  { r with
    removed := Function.update r.removed name (some stationId) }

/-- `get_removed_station_id`: an empty id counts as none. -/
def getRemovedStationId (r : Registry) (name : String) : Option String :=
  (r.removed name).filter fun v => v != ""

/-- `clear_removed_station_id`. -/
def clearRemovedStationId (r : Registry) (name : String) : Registry :=
  { r with
    removed := Function.update r.removed name none }

/-- `set_pending_conflict`. -/
def setPendingConflict (r : Registry) (name oldId newId : String) : Registry :=
  { r with
    conflict := Function.update r.conflict name (some ⟨oldId, newId⟩) }

/-- `has_pending_conflict`. -/
def hasPendingConflict (r : Registry) (name : String) : Bool :=
  (r.conflict name).isSome

/-- `clear_pending_conflict`. -/
def clearPendingConflict (r : Registry) (name : String) : Registry :=
  { r with
    conflict := Function.update r.conflict name none }

/-- `EXISTS`. -/
def existsKey (r : Registry) (text : String) : Bool :=
  r.data.any fun e => e.text == text

/-- `has_station_remnant_data`. -/
def hasStationRemnantData (r : Registry) (name : String) : Bool :=
  r.existsKey (DataKey.cursor.text name) ||
    unitList.any fun unit => r.existsKey ((DataKey.frozenIndex unit).text name)

/-- The patterns of `delete_station_data`. -/
def deletePatterns (name : String) : List String :=
  [DataKey.cursor.text name, "live:raw:" ++ name ++ ":*",
    "live:stats:" ++ name ++ ":*", "frozen:" ++ name ++ ":*",
    "frozen:index:" ++ name ++ ":*", "residual:" ++ name ++ ":*"]

/-- One pattern of `delete_station_data`: with a `*` in it, all keys that
it matches, and else the one key. -/
def deletePattern (glob : String → String → Bool) (r : Registry)
    (pattern : String) : Registry :=
  { r with
    data := r.data.filter fun e =>
      if pattern.contains '*' then !glob pattern e.text
      else e.text != pattern }

/-- The key is there, written under the id alone. -/
def setKey (r : Registry) (e : Entry) : Registry :=
  { r with
    data := r.data.filter (fun x => !(x.station == e.station && x.key == e.key)) ++ [e] }

/-- The key is there, with something written under the id. -/
def addKey (r : Registry) (e : Entry) : Registry :=
  { r with
    data := r.data ++ [e] }

/-- The key is not there. -/
def deleteKey (r : Registry) (name : String) (key : DataKey) : Registry :=
  { r with
    data := r.data.filter fun x => !(x.station == name && x.key == key) }

/-- `add_live_raw`, `set_live_stats`, `freeze_bucket` and `set_cursor` of
the task of a station. -/
def write (r : Registry) (st : StationInfo) : TaskWrite → Registry
  | .addLiveRaw unit bkey =>
    r.addKey ⟨st.stationName, .liveRaw unit bkey, st.stationId⟩
  | .setLiveStats unit bkey =>
    r.setKey ⟨st.stationName, .liveStats unit bkey, st.stationId⟩
  | .freezeBucket unit bkey =>
    (((r.setKey ⟨st.stationName, .frozen unit bkey, st.stationId⟩).addKey
      ⟨st.stationName, .frozenIndex unit, st.stationId⟩).deleteKey
        st.stationName (.liveRaw unit bkey)).deleteKey
        st.stationName (.liveStats unit bkey)
  | .setCursor => r.setKey ⟨st.stationName, .cursor, st.stationId⟩

/-- A task writes under its own name and id, and nothing but data. -/
theorem mem_data_write {r : Registry} {st : StationInfo} {op : TaskWrite}
    {e : Entry} (h : e ∈ (r.write st op).data) :
    e ∈ r.data ∨ (e.station = st.stationName ∧ e.stationId = st.stationId) := by
  cases op <;>
    simp only [write, setKey, addKey, deleteKey, List.mem_append,
      List.mem_filter, List.mem_singleton] at h <;>
    grind

@[simp] theorem removed_write (r : Registry) (st : StationInfo)
    (op : TaskWrite) : (r.write st op).removed = r.removed := by
  cases op <;> rfl

@[simp] theorem conflict_write (r : Registry) (st : StationInfo)
    (op : TaskWrite) : (r.write st op).conflict = r.conflict := by
  cases op <;> rfl

@[simp] theorem getRemovedStationId_setRemovedStationId (r : Registry)
    (name stationId n : String) :
    (r.setRemovedStationId name stationId).getRemovedStationId n =
      if n = name then (some stationId).filter (fun v => v != "")
      else r.getRemovedStationId n := by
  unfold getRemovedStationId setRemovedStationId
  dsimp only
  by_cases h : n = name
  · rw [h, Function.update_self, if_pos rfl]
  · rw [Function.update_of_ne h, if_neg h]

@[simp] theorem getRemovedStationId_clearRemovedStationId (r : Registry)
    (name n : String) :
    (r.clearRemovedStationId name).getRemovedStationId n =
      if n = name then none else r.getRemovedStationId n := by
  unfold getRemovedStationId clearRemovedStationId
  dsimp only
  by_cases h : n = name
  · rw [h, Function.update_self, if_pos rfl]
    rfl
  · rw [Function.update_of_ne h, if_neg h]

theorem mem_data_deletePattern {glob : String → String → Bool} {r : Registry}
    {pattern : String} {e : Entry}
    (h : e ∈ (r.deletePattern glob pattern).data) : e ∈ r.data :=
  (List.mem_filter.mp h).1

end Registry

/-! ## The decision of the user -/

/-- `ResolveBody.action`. -/
inductive ResolveAction where
  | carryOver
  | startFresh
deriving DecidableEq, Repr

/-- One await of `resolve_conflict`. -/
inductive ResolveOp where
  | delete (pattern : String)
  | setRemoved (newId : String)
  | clearRemoved
  | clearConflict
deriving DecidableEq, Repr

/-- What `resolve_conflict` does once it knows the new id. -/
def resolveOps (name : String) (newId : Option String) :
    ResolveAction → List ResolveOp
  | .startFresh =>
    (Registry.deletePatterns name).map .delete ++ [.clearRemoved, .clearConflict]
  | .carryOver =>
    match newId with
    | none => [.clearConflict]
    | some id => if id = "" then [.clearConflict] else [.setRemoved id, .clearConflict]

/-- One operation of `resolve_conflict` for the station. -/
def ResolveOp.effect (glob : String → String → Bool) (name : String)
    (r : Registry) : ResolveOp → Registry
  | .delete pattern => r.deletePattern glob pattern
  | .setRemoved newId => r.setRemovedStationId name newId
  | .clearRemoved => r.clearRemovedStationId name
  | .clearConflict => r.clearPendingConflict name

end DustMonitoring.Dumopro
