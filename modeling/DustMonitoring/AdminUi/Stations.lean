import DustMonitoring.Lib.Run
import DustMonitoring.Lib.Table

/-!
# The names of the stations

The admin UI creates stations, either by hand or by approving the request
that the gateway wrote down when a device with an unknown name sent
something.  The gateway looks a station up by its name, and the table
`station` has no constraint on the names.

A call of `approve_request` reads the request, and then inserts the station
and marks the request in one transaction.  Anything can happen in between.

* `unambiguous_iff`: the names stay unambiguous exactly if no station is
  inserted under a name that a station has.
* `insertsFree_of_approvedOnce`: the requests see to that as long as no
  approved request is rejected, no two approvals of one name overlap, and
  no station is created by hand.
-/

namespace DustMonitoring.AdminUi

open DustMonitoring.Lib

/-! ## The tables -/

/-- A row of `station`; the times of its creation and of its last change
are left out. -/
structure StationRow where
  stationId : Nat
  stationName : String
  locationInfo : Option String
  amrId : Option String
  captureCycle : Option Int
  description : Option String
  status : String
deriving DecidableEq, Repr

inductive RequestStatus where
  | pending
  | approved
  | rejected
deriving DecidableEq, Repr

/-- A row of `station_request`; its times and its counter are left out. -/
structure RequestRow where
  stationName : String
  status : RequestStatus
  notes : Option String
deriving DecidableEq, Repr

structure GatewayDb where
  stations : SerialTable StationRow.stationId := SerialTable.empty
  requests : Table RequestRow.stationName := Table.empty

/-! ## The bodies of the requests -/

/-- `_STATION_STATUS_PATTERN` and `_VALID_STATUS`. -/
def validStatus : List String :=
  ["collecting", "waiting", "training", "inferring", "inactive"]

/-- `Field(default=None, max_length=128)` of `amr_id`. -/
def validAmrId (amrId : Option String) : Bool := amrId.all fun s => decide (s.length ≤ 128)

/-- `Field(default=None, ge=1, le=86400)` of `capture_cycle`. -/
def validCaptureCycle (captureCycle : Option Int) : Bool :=
  captureCycle.all fun n => decide (1 ≤ n ∧ n ≤ 86400)

structure StationCreate where
  stationName : String
  locationInfo : Option String := none
  amrId : Option String := none
  captureCycle : Option Int := none
  description : Option String := none
  status : String := "collecting"
deriving DecidableEq, Repr

structure RequestApprove where
  locationInfo : Option String := none
  amrId : Option String := none
  captureCycle : Option Int := none
  description : Option String := none
  notes : Option String := none
deriving DecidableEq, Repr

/-- The body passes the checks of its model. -/
def StationCreate.valid (body : StationCreate) : Bool :=
  decide (1 ≤ body.stationName.length ∧ body.stationName.length ≤ 255) &&
    validAmrId body.amrId && validCaptureCycle body.captureCycle &&
    validStatus.contains body.status

def RequestApprove.valid (body : RequestApprove) : Bool :=
  validAmrId body.amrId && validCaptureCycle body.captureCycle

/-- The row that is inserted for the body. -/
def StationCreate.row (body : StationCreate) (stationId : Nat) : StationRow where
  stationId := stationId
  stationName := body.stationName
  locationInfo := body.locationInfo
  amrId := body.amrId
  captureCycle := body.captureCycle
  description := body.description
  status := body.status

/-- The row of an approved request. -/
def RequestApprove.create (body : RequestApprove) (stationName : String) :
    StationCreate where
  stationName := stationName
  locationInfo := body.locationInfo
  amrId := body.amrId
  captureCycle := body.captureCycle
  description := body.description
  status := "collecting"

/-! ## The repositories -/

namespace GatewayDb

/-- The unique constraint of `station` that the row violates.  The primary
key is the only one that the table has. -/
def uniqueViolation (db : GatewayDb) (row : StationRow) : Option String :=
  (db.stations.find? row.stationId).map fun _ =>
    "duplicate key value violates unique constraint \"station_pkey\""

/-- `INSERT INTO station`.  The id that `gen_random_uuid` draws is one that
was not drawn before. -/
def insertStation (db : GatewayDb) (body : StationCreate) :
    Except String (StationRow × GatewayDb) :=
  match db.uniqueViolation (body.row db.stations.next) with
  | some detail => .error detail
  | none =>
    .ok (body.row db.stations.next,
      { db with stations := db.stations.append body.row fun _ => rfl })

/-- `StationAdminRepository.create`, without a `station_id`. -/
def create (db : GatewayDb) (body : StationCreate) :
    Except String (StationRow × GatewayDb) :=
  if body.status ∈ validStatus then db.insertStation body
  else .error ("invalid status: " ++ body.status)

/-- `StationRequestRepository.upsert` of the gateway. -/
def upsert (db : GatewayDb) (stationName : String) : GatewayDb :=
  if stationName = "" then db
  else { db with requests := db.requests.insert ⟨stationName, .pending, none⟩ }

/-- `StationRequestAdminRepository.get`. -/
def get (db : GatewayDb) (stationName : String) : Option RequestRow :=
  db.requests.find? stationName

/-- `reject`: the row was there, and the tables after it. -/
def reject (db : GatewayDb) (stationName : String) (notes : Option String) :
    Bool × GatewayDb :=
  ((db.requests.find? stationName).isSome,
    { db with
      requests := db.requests.updateWhere
        (fun r => decide (r.stationName = stationName))
        (fun r => { r with status := .rejected, notes := notes.or r.notes }) fun _ => rfl })

/-- `restore`. -/
def restore (db : GatewayDb) (stationName : String) : Bool × GatewayDb :=
  ((db.requests.find? stationName).any fun r => decide (r.status = .rejected),
    { db with
      requests := db.requests.updateWhere
        (fun r => decide (r.stationName = stationName ∧ r.status = .rejected))
        (fun r => { r with status := .pending }) fun _ => rfl })

/-- `approve`, one transaction. -/
def approve (db : GatewayDb) (stationName : String) (body : RequestApprove) :
    Except String (StationRow × GatewayDb) := do
  let (row, db) ← db.insertStation (body.create stationName)
  return (row,
    { db with
      requests := db.requests.updateWhere
        (fun r => decide (r.stationName = stationName))
        (fun r => { r with status := .approved, notes := body.notes.or r.notes }) fun _ => rfl })

/-- The ids that the query of `lookup_by_name` selects. -/
def lookups (db : GatewayDb) (stationName : String) : List Nat :=
  (db.stations.rows.filter fun r =>
    decide (r.stationName = stationName ∧ r.status ≠ "inactive")).map StationRow.stationId

/-- What `lookup_by_name` may return: `fetchrow` takes the first row, and the
query does not order them. -/
def LookupByName (db : GatewayDb) (stationName : String) : Option Nat → Prop
  | some stationId => stationId ∈ db.lookups stationName
  | none => db.lookups stationName = []

end GatewayDb

/-! ## The handlers -/

/-- What the client gets. -/
inductive Response where
  | station (code : Nat) (row : StationRow)
  | ok
  | error (code : Nat) (detail : String)
deriving DecidableEq, Repr

/-- A call of `approve_request`, between its two statements. -/
inductive Call where
  | idle
  | approving (stationName : String) (body : RequestApprove)
deriving DecidableEq, Repr

structure System where
  db : GatewayDb := {}
  calls : Nat → Call := fun _ => .idle

/-- What happens next.  The outcome is that of the connection to the
database. -/
inductive Event where
  /-- The gateway hears from a name that it does not find. -/
  | upsert (stationName : String)
  | createStation (body : StationCreate) (o : Outcome)
  /-- `approve_request` has read the request. -/
  | approveRequest (i : Nat) (stationName : String) (body : RequestApprove)
  /-- The transaction of the call ends. -/
  | approve (i : Nat) (o : Outcome)
  | rejectRequest (stationName : String) (notes : Option String) (o : Outcome)
  | restoreRequest (stationName : String) (o : Outcome)

/-- An exception that no handler catches. -/
def internalError : Response := .error 500 "Internal Server Error"

/-- A body that does not pass its model. -/
def unprocessable : Response := .error 422 "Unprocessable Entity"

/-- What the client of the event gets.  A call of `approve_request` that goes
on to its transaction gives no answer yet. -/
def answer (s : System) : Event → Option Response
  | .upsert _ => none
  | .createStation body o =>
    if body.valid then
      match s.db.create body, o.exc? with
      | .ok (row, _), none => some (.station 201 row)
      | _, _ => some internalError
    else some unprocessable
  | .approveRequest _ stationName body =>
    if body.valid then
      match s.db.get stationName with
      | none => some (.error 404 "request not found")
      | some existing =>
        if existing.status = .approved then some (.error 409 "이미 승인된 요청입니다")
        else none
    else some unprocessable
  | .approve i o =>
    match s.calls i with
    | .idle => none
    | .approving stationName body =>
      match s.db.approve stationName body, o.exc? with
      | .ok (row, _), none => some (.station 200 row)
      | .ok _, some _ => some internalError
      | .error detail, _ => some (.error 409 detail)
  | .rejectRequest stationName notes o =>
    if o.exc?.isSome then some internalError
    else if (s.db.reject stationName notes).1 then some .ok
    else some (.error 404 "request not found")
  | .restoreRequest stationName o =>
    if o.exc?.isSome then some internalError
    else if (s.db.restore stationName).1 then some .ok
    else some (.error 404 "rejected request not found")

/-- The tables after an insert. -/
def settleInsert (db : GatewayDb) (o : Outcome) :
    Except String (StationRow × GatewayDb) → GatewayDb
  | .ok (_, db') => o.settle db db'
  | .error _ => db

/-- The system after the event. -/
def step (s : System) : Event → System
  | .upsert stationName => { s with db := s.db.upsert stationName }
  | .createStation body o =>
    if body.valid then { s with db := settleInsert s.db o (s.db.create body) } else s
  | .approveRequest i stationName body =>
    match s.calls i, answer s (.approveRequest i stationName body) with
    | .idle, none => { s with calls := Function.update s.calls i (.approving stationName body) }
    | _, _ => s
  | .approve i o =>
    match s.calls i with
    | .idle => s
    | .approving stationName body =>
      { db := settleInsert s.db o (s.db.approve stationName body)
        calls := Function.update s.calls i .idle }
  | .rejectRequest stationName notes o =>
    { s with db := o.settle s.db (s.db.reject stationName notes).2 }
  | .restoreRequest stationName o =>
    { s with db := o.settle s.db (s.db.restore stationName).2 }

/-! ## The property -/

/-- At most one row has a given name. -/
def NamesUnique (db : GatewayDb) : Prop :=
  ∀ x ∈ db.stations.rows, ∀ y ∈ db.stations.rows, x.stationName = y.stationName → x = y

/-- `lookup_by_name` can return one thing only. -/
def LookupUnambiguous (db : GatewayDb) : Prop :=
  ∀ name r r', db.LookupByName name r → db.LookupByName name r' → r = r'

/-- A station has the name. -/
def Taken (db : GatewayDb) (name : String) : Prop :=
  ∃ row ∈ db.stations.rows, row.stationName = name

/-- The transaction of an approval whose name is taken fails with 409, unless
the connection fails it before. -/
def TakenRefused (s : System) : Event → Prop
  | .approve i o =>
    ∀ name body, s.calls i = .approving name body → Taken s.db name → o.applied = true →
      ∃ detail, answer s (.approve i o) = some (.error 409 detail)
  | _ => True

/-- The names stay unambiguous in the run. -/
structure Unambiguous (events : List Event) : Prop where
  names : ∀ pre, pre <+: events → NamesUnique (run step {} pre).db
  lookup : ∀ pre, pre <+: events → LookupUnambiguous (run step {} pre).db
  refused : AllSteps step TakenRefused {} events

/-- The station that the event inserts. -/
def inserts (s : System) : Event → Option StationCreate
  | .createStation body o => if body.valid && o.applied then some body else none
  | .approve i o =>
    match s.calls i with
    | .idle => none
    | .approving stationName body =>
      if o.applied then some (body.create stationName) else none
  | _ => none

/-- No station has the name under which one is inserted. -/
def InsertsFree (s : System) (e : Event) : Prop :=
  ∀ body ∈ inserts s e, ¬ Taken s.db body.stationName

/-! ## What an event does to the stations -/

namespace GatewayDb

variable (db : GatewayDb)

/-- An insert never violates the one constraint. -/
theorem insertStation_eq (body : StationCreate) :
    db.insertStation body =
      .ok (body.row db.stations.next,
        { db with stations := db.stations.append body.row fun _ => rfl }) := by
  have hfresh : db.uniqueViolation (body.row db.stations.next) = none := by
    unfold uniqueViolation
    rw [show (body.row db.stations.next).stationId = db.stations.next from rfl,
      db.stations.find?_next]
    rfl
  rw [insertStation, hfresh]

theorem create_eq {body : StationCreate} (h : body.valid = true) :
    db.create body = db.insertStation body := by
  refine if_pos ?_
  simp only [StationCreate.valid, Bool.and_eq_true, List.contains_iff_mem] at h
  exact h.2

end GatewayDb

variable {s : System} {e : Event}

/-- The event inserts one station at most, under an id that no row has. -/
theorem rows_step (s : System) (e : Event) :
    (step s e).db.stations.rows =
      s.db.stations.rows ++ ((inserts s e).map fun b => b.row s.db.stations.next).toList := by
  cases e with
  | upsert stationName =>
    simp only [step, GatewayDb.upsert, inserts]
    split <;> simp
  | createStation body o =>
    simp only [step, inserts]
    by_cases hvalid : body.valid = true
    · rw [if_pos hvalid, GatewayDb.create_eq _ hvalid, GatewayDb.insertStation_eq]
      cases ho : o.applied <;> simp [settleInsert, Outcome.settle, ho, hvalid, SerialTable.append]
    · simp [hvalid]
  | approveRequest i stationName body =>
    simp only [step, inserts]
    split <;> simp
  | approve i o =>
    simp only [step, inserts]
    cases s.calls i with
    | idle => simp
    | approving stationName body =>
      simp only [GatewayDb.approve, GatewayDb.insertStation_eq]
      cases ho : o.applied <;>
        simp [settleInsert, Outcome.settle, ho, SerialTable.append, pure, Except.pure, bind,
          Except.bind]
  | rejectRequest stationName notes o =>
    cases ho : o.applied <;> simp [step, inserts, Outcome.settle, ho, GatewayDb.reject]
  | restoreRequest stationName o =>
    cases ho : o.applied <;> simp [step, inserts, Outcome.settle, ho, GatewayDb.restore]

theorem mem_rows_step {x : StationRow} :
    x ∈ (step s e).db.stations.rows ↔
      x ∈ s.db.stations.rows ∨
        ∃ body ∈ inserts s e, x = body.row s.db.stations.next := by
  rw [rows_step, List.mem_append]
  refine or_congr_right ?_
  cases inserts s e with
  | none => simp
  | some body => simp

/-! ## The names -/

/-- An insert under a free name keeps the names unique. -/
theorem namesUnique_step (h : NamesUnique s.db) (hfree : InsertsFree s e) :
    NamesUnique (step s e).db := by
  intro x hx y hy hname
  rcases mem_rows_step.mp hx with hx | ⟨body, hbody, rfl⟩
  · rcases mem_rows_step.mp hy with hy | ⟨body, hbody, rfl⟩
    · exact h x hx y hy hname
    · exact absurd ⟨x, hx, hname⟩ (hfree body hbody)
  · rcases mem_rows_step.mp hy with hy | ⟨body', hbody', rfl⟩
    · exact absurd ⟨y, hy, hname.symm⟩ (hfree body hbody)
    · rw [Option.mem_unique hbody hbody']

/-- An insert under a name that a station has leaves two rows of the name. -/
theorem insertsFree_of_namesUnique (h : NamesUnique (step s e).db) : InsertsFree s e := by
  rintro body hbody ⟨row, hrow, hname⟩
  have hnew : body.row s.db.stations.next ∈ (step s e).db.stations.rows :=
    mem_rows_step.mpr (Or.inr ⟨body, hbody, rfl⟩)
  have hsame := h row (mem_rows_step.mpr (Or.inl hrow)) _ hnew hname
  have hlt := s.db.stations.lt_next row hrow
  rw [hsame] at hlt
  exact absurd hlt (Nat.lt_irrefl _)

theorem mem_lookups {db : GatewayDb} {name : String} {id : Nat} :
    id ∈ db.lookups name ↔ ∃ row ∈ db.stations.rows,
      row.stationName = name ∧ row.status ≠ "inactive" ∧ row.stationId = id := by
  simp only [GatewayDb.lookups, List.mem_map, List.mem_filter, decide_eq_true_eq]
  constructor
  · rintro ⟨row, ⟨hrow, hname, hstatus⟩, hid⟩
    exact ⟨row, hrow, hname, hstatus, hid⟩
  · rintro ⟨row, hrow, hname, hstatus, hid⟩
    exact ⟨row, ⟨hrow, hname, hstatus⟩, hid⟩

theorem lookupUnambiguous_of_namesUnique {db : GatewayDb} (h : NamesUnique db) :
    LookupUnambiguous db := by
  intro name r r' hr hr'
  cases r with
  | none =>
    cases r' with
    | none => rfl
    | some id =>
      rw [GatewayDb.LookupByName, show db.lookups name = [] from hr] at hr'
      exact absurd hr' List.not_mem_nil
  | some id =>
    cases r' with
    | none =>
      rw [GatewayDb.LookupByName, show db.lookups name = [] from hr'] at hr
      exact absurd hr List.not_mem_nil
    | some id' =>
      obtain ⟨x, hx, hxname, -, rfl⟩ := mem_lookups.mp hr
      obtain ⟨y, hy, hyname, -, rfl⟩ := mem_lookups.mp hr'
      rw [h x hx y hy (hxname.trans hyname.symm)]

/-- Under a free name there is nothing to refuse. -/
theorem takenRefused_of_insertsFree (h : InsertsFree s e) : TakenRefused s e := by
  cases e with
  | approve i o =>
    intro name body hcall htaken happlied
    have hinserts : inserts s (.approve i o) = some (body.create name) := by
      simp only [inserts, hcall, happlied]
      rfl
    exact absurd htaken (h _ hinserts)
  | _ => trivial

/-- The names stay unambiguous exactly in the runs that insert stations
under free names only. -/
theorem unambiguous_iff (events : List Event) :
    Unambiguous events ↔ AllSteps step InsertsFree {} events := by
  constructor
  · intro h
    refine allSteps_iff.mpr fun pre e post hes => insertsFree_of_namesUnique ?_
    rw [← run_concat step {} pre e]
    refine h.names (pre ++ [e]) ⟨post, ?_⟩
    rw [hes, List.append_assoc]
    rfl
  · intro h
    have hnames : ∀ pre, pre <+: events → NamesUnique (run step {} pre).db := by
      rintro pre ⟨post, rfl⟩
      refine run_invariant_of_allSteps (fun s e => namesUnique_step) ?_ (allSteps_append.mp h).1
      exact fun x hx => absurd hx List.not_mem_nil
    refine ⟨hnames, fun pre hpre => lookupUnambiguous_of_namesUnique (hnames pre hpre), ?_⟩
    exact h.imp (fun _ => True) (fun _ _ _ _ => trivial)
      (fun _ _ _ => takenRefused_of_insertsFree) trivial

/-! ## What the requests see to -/

namespace GatewayDb

/-- An approval inserts the station and marks the request. -/
theorem approve_eq (db : GatewayDb) (stationName : String) (body : RequestApprove) :
    ∃ db', db.approve stationName body =
        .ok ((body.create stationName).row db.stations.next, db') ∧
      db'.stations.rows =
        db.stations.rows ++ [(body.create stationName).row db.stations.next] ∧
      ∀ name, db'.get name = (db.get name).map fun r =>
        if decide (r.stationName = stationName) then
          { r with status := .approved, notes := body.notes.or r.notes }
        else r := by
  refine ⟨{ db with
    stations := db.stations.append (body.create stationName).row fun _ => rfl
    requests := db.requests.updateWhere (fun r => decide (r.stationName = stationName))
      (fun r => { r with status := .approved, notes := body.notes.or r.notes })
      fun _ => rfl }, ?_, rfl, fun name => ?_⟩
  · rw [approve, insertStation_eq]
    rfl
  · simp only [get, Table.find?_updateWhere]

theorem get_reject (db : GatewayDb) (stationName : String) (notes : Option String)
    (name : String) :
    (db.reject stationName notes).2.get name = (db.get name).map fun r =>
      if decide (r.stationName = stationName) then
        { r with status := .rejected, notes := notes.or r.notes }
      else r := by
  simp only [get, reject, Table.find?_updateWhere]

theorem get_restore (db : GatewayDb) (stationName name : String) :
    (db.restore stationName).2.get name = (db.get name).map fun r =>
      if decide (r.stationName = stationName ∧ r.status = .rejected) then
        { r with status := .pending }
      else r := by
  simp only [get, restore, Table.find?_updateWhere]

/-- The status of the request of the name. -/
def requestStatus (db : GatewayDb) (name : String) : Option RequestStatus :=
  (db.get name).map RequestRow.status

/-- The requests that `db` has are still there, and what was approved is. -/
structure KeepsApproved (db db' : GatewayDb) : Prop where
  asked : ∀ name, db.requestStatus name ≠ none → db'.requestStatus name ≠ none
  approved : ∀ name, db.requestStatus name = some .approved →
    db'.requestStatus name = some .approved

variable {db : GatewayDb}

theorem KeepsApproved.refl : KeepsApproved db db := ⟨fun _ h => h, fun _ h => h⟩

theorem keepsApproved_settle {db' : GatewayDb} (o : Outcome) (h : KeepsApproved db db') :
    KeepsApproved db (o.settle db db') := by
  unfold Outcome.settle
  split
  · exact h
  · exact KeepsApproved.refl

theorem keepsApproved_upsert (stationName : String) : KeepsApproved db (db.upsert stationName) := by
  have hget : ∀ name r, db.get name = some r → (db.upsert stationName).get name = some r := by
    intro name r hr
    unfold upsert
    split
    · exact hr
    · obtain ⟨hmem, hname⟩ := Table.find?_eq_some_iff.mp hr
      exact Table.find?_eq_some_iff.mpr ⟨Table.mem_insert.mpr (Or.inl hmem), hname⟩
  refine ⟨fun name h hnone => ?_, fun name h => ?_⟩
  · cases hr : db.get name with
    | none => exact h (by rw [requestStatus, hr]; rfl)
    | some r =>
      rw [requestStatus, hget name r hr] at hnone
      contradiction
  · obtain ⟨r, hr, hstatus⟩ := Option.map_eq_some_iff.mp h
    rw [requestStatus, hget name r hr]
    exact congrArg some hstatus

/-- An update of the requests that leaves alone what was approved. -/
theorem keepsApproved_update {db' : GatewayDb} {p : RequestRow → Bool}
    {f : RequestRow → RequestRow}
    (hget : ∀ name, db'.get name = (db.get name).map fun r => if p r then f r else r)
    (hp : ∀ name r, db.get name = some r → r.status = .approved → p r = true →
      (f r).status = .approved) :
    KeepsApproved db db' := by
  refine ⟨fun name h => ?_, fun name h => ?_⟩
  · simpa [requestStatus, hget] using h
  · obtain ⟨r, hr, hstatus⟩ := Option.map_eq_some_iff.mp h
    rw [requestStatus, hget, hr]
    refine congrArg some ?_
    dsimp only
    split
    · next hpr => exact hp name r hr hstatus hpr
    · exact hstatus

theorem requestStatus_approve {db' : GatewayDb} {name : String} {notes : Option String}
    (hget : ∀ n, db'.get n = (db.get n).map fun r =>
      if decide (r.stationName = name) then
        { r with status := .approved, notes := notes.or r.notes }
      else r)
    (hasked : db.requestStatus name ≠ none) : db'.requestStatus name = some .approved := by
  cases hr : db.get name with
  | none => exact absurd (by rw [requestStatus, hr]; rfl) hasked
  | some r =>
    have hname : r.stationName = name := (Table.find?_eq_some_iff.mp hr).2
    simp [requestStatus, hget, hr, hname]

end GatewayDb

/-- The request marks the name: a station has the name only if its request
is approved and no approval of the name is on its way, and there is one such
approval at most. -/
structure Marked (s : System) : Prop where
  taken : ∀ name, Taken s.db name → s.db.requestStatus name = some .approved ∧
    ∀ i body, s.calls i ≠ .approving name body
  once : ∀ i j name body body', s.calls i = .approving name body →
    s.calls j = .approving name body' → i = j
  asked : ∀ i name body, s.calls i = .approving name body → s.db.requestStatus name ≠ none

/-- No station is created by hand, no two approvals of one name overlap, and
no approved request is rejected. -/
def ApprovedOnce (s : System) : Event → Prop
  | .createStation _ _ => False
  | .approveRequest _ stationName _ => ∀ j body, s.calls j ≠ .approving stationName body
  | .rejectRequest stationName _ _ => s.db.requestStatus stationName ≠ some .approved
  | _ => True

/-- A step that inserts no station and begins no approval. -/
theorem Marked.keeps (h : Marked s) {db' : GatewayDb}
    (hrows : db'.stations.rows = s.db.stations.rows) (hkeeps : s.db.KeepsApproved db') :
    Marked { s with db := db' } where
  taken := fun name ⟨row, hrow, hname⟩ => by
    obtain ⟨happroved, hnone⟩ := h.taken name ⟨row, hrows ▸ hrow, hname⟩
    exact ⟨hkeeps.approved name happroved, hnone⟩
  once := h.once
  asked := fun i name body hcall => hkeeps.asked name (h.asked i name body hcall)

/-- A request is read, and its approval begins. -/
theorem Marked.begin (h : Marked s) {i : Nat} {stationName : String} {body : RequestApprove}
    (hstatus : ∃ status, s.db.requestStatus stationName = some status ∧ status ≠ .approved)
    (hnone : ∀ j body, s.calls j ≠ .approving stationName body) :
    Marked { s with calls := Function.update s.calls i (.approving stationName body) } := by
  obtain ⟨status, hrequest, hne⟩ := hstatus
  -- a call for another name was there before
  have hcalls : ∀ {j name b},
      Function.update s.calls i (.approving stationName body) j = .approving name b →
        (j = i ∧ name = stationName) ∨ s.calls j = .approving name b := by
    intro j name b hj
    by_cases heq : j = i
    · rw [heq, Function.update_self] at hj
      exact Or.inl ⟨heq, (Call.approving.inj hj).1.symm⟩
    · rw [Function.update_of_ne heq] at hj
      exact Or.inr hj
  refine ⟨fun name htaken => ?_, fun j k name b b' hj hk => ?_, fun j name b hj => ?_⟩
  · obtain ⟨happroved, hfree⟩ := h.taken name htaken
    refine ⟨happroved, fun j b hj => ?_⟩
    rcases hcalls hj with ⟨-, rfl⟩ | hj
    · exact hne (Option.some.inj (hrequest.symm.trans happroved))
    · exact hfree j b hj
  · rcases hcalls hj with ⟨hji, hname⟩ | hj'
    · rcases hcalls hk with ⟨hki, -⟩ | hk'
      · exact hji.trans hki.symm
      · exact absurd (hname ▸ hk') (hnone k b')
    · rcases hcalls hk with ⟨-, hname⟩ | hk'
      · exact absurd (hname ▸ hj') (hnone j b)
      · exact h.once j k name b b' hj' hk'
  · rcases hcalls hj with ⟨-, rfl⟩ | hj
    · rw [hrequest]
      nofun
    · exact h.asked j name b hj

/-- The call ends, with its station inserted or not. -/
theorem Marked.finish (h : Marked s) {i : Nat} {stationName : String} {body : RequestApprove}
    (hcall : s.calls i = .approving stationName body) {db' : GatewayDb}
    (htaken : ∀ name, Taken db' name → Taken s.db name ∨
      (name = stationName ∧ db'.requestStatus name = some .approved))
    (hkeeps : s.db.KeepsApproved db') :
    Marked { db := db', calls := Function.update s.calls i .idle } := by
  have hcalls : ∀ {j name b}, Function.update s.calls i .idle j = .approving name b →
      j ≠ i ∧ s.calls j = .approving name b := by
    intro j name b hj
    by_cases heq : j = i
    · rw [heq, Function.update_self] at hj
      contradiction
    · rw [Function.update_of_ne heq] at hj
      exact ⟨heq, hj⟩
  refine ⟨fun name hname => ?_, fun j k name b b' hj hk => ?_, fun j name b hj => ?_⟩
  · rcases htaken name hname with htaken | ⟨rfl, happroved⟩
    · obtain ⟨happroved, hfree⟩ := h.taken name htaken
      exact ⟨hkeeps.approved name happroved, fun j b hj => hfree j b (hcalls hj).2⟩
    · refine ⟨happroved, fun j b hj => ?_⟩
      obtain ⟨hne, hj⟩ := hcalls hj
      exact hne (h.once j i name b body hj hcall)
  · exact h.once j k name b b' (hcalls hj).2 (hcalls hk).2
  · exact hkeeps.asked name (h.asked j name b (hcalls hj).2)

theorem marked_step (h : Marked s) (he : ApprovedOnce s e) : Marked (step s e) := by
  cases e with
  | upsert stationName =>
    refine h.keeps ?_ (GatewayDb.keepsApproved_upsert stationName)
    have hrows := rows_step s (.upsert stationName)
    simpa [step, inserts] using hrows
  | createStation body o => exact absurd he id
  | approveRequest i stationName body =>
    dsimp only [step]
    split
    · next hidle hanswer =>
      refine h.begin ?_ he
      simp only [answer] at hanswer
      split at hanswer
      · split at hanswer
        · contradiction
        · next existing hget =>
          split at hanswer
          · contradiction
          · next hne => exact ⟨existing.status, by rw [GatewayDb.requestStatus, hget]; rfl, hne⟩
      · contradiction
    · exact h
  | approve i o =>
    dsimp only [step]
    cases hcall : s.calls i with
    | idle => exact h
    | approving stationName body =>
      obtain ⟨db', happrove, hrows, hget⟩ := s.db.approve_eq stationName body
      dsimp only
      rw [happrove, settleInsert]
      have hkeeps : s.db.KeepsApproved db' :=
        GatewayDb.keepsApproved_update hget fun _ _ _ _ _ => rfl
      refine h.finish hcall (fun name htaken => ?_) (GatewayDb.keepsApproved_settle o hkeeps)
      cases ho : o.applied with
      | false =>
        simp only [Outcome.settle, ho] at htaken
        exact Or.inl htaken
      | true =>
        simp only [Outcome.settle, ho, if_true] at htaken ⊢
        obtain ⟨row, hrow, hname⟩ := htaken
        rw [hrows, List.mem_append, List.mem_singleton] at hrow
        rcases hrow with hrow | rfl
        · exact Or.inl ⟨row, hrow, hname⟩
        · refine Or.inr ⟨hname.symm, ?_⟩
          subst hname
          exact GatewayDb.requestStatus_approve hget (h.asked i _ body hcall)
  | rejectRequest stationName notes o =>
    refine h.keeps ?_ (GatewayDb.keepsApproved_settle o ?_)
    · cases ho : o.applied <;> simp [Outcome.settle, ho, GatewayDb.reject]
    · refine GatewayDb.keepsApproved_update (s.db.get_reject stationName notes)
        fun name r hr hstatus hp => ?_
      have hname : r.stationName = stationName := of_decide_eq_true hp
      have hget : s.db.get stationName = some r := by
        rw [← hname, (Table.find?_eq_some_iff.mp hr).2]
        exact hr
      refine absurd ?_ he
      rw [GatewayDb.requestStatus, hget]
      exact congrArg some hstatus
  | restoreRequest stationName o =>
    refine h.keeps ?_ (GatewayDb.keepsApproved_settle o ?_)
    · cases ho : o.applied <;> simp [Outcome.settle, ho, GatewayDb.restore]
    · refine GatewayDb.keepsApproved_update (s.db.get_restore stationName)
        fun name r hr hstatus hp => ?_
      rw [(of_decide_eq_true hp).2] at hstatus
      contradiction

theorem marked_init : Marked {} where
  taken := fun _ ⟨_, hrow, _⟩ => absurd hrow List.not_mem_nil
  once := fun _ _ _ _ _ h => by contradiction
  asked := fun _ _ _ h => by contradiction

/-- A marked name is taken only if no approval of it is on its way. -/
theorem Marked.insertsFree (h : Marked s) (he : ApprovedOnce s e) : InsertsFree s e := by
  intro body hbody htaken
  cases e with
  | createStation b o => exact he
  | approve i o =>
    simp only [inserts] at hbody
    split at hbody
    · contradiction
    · next stationName b hcall =>
      split at hbody
      · obtain rfl := Option.some.inj hbody
        exact (h.taken stationName htaken).2 i b hcall
      · contradiction
  | _ => contradiction

/-- If stations are created by approvals only, no two approvals of one name
overlap and no approved request is rejected, all inserts are under free
names. -/
theorem insertsFree_of_approvedOnce {events : List Event}
    (h : AllSteps step ApprovedOnce {} events) : AllSteps step InsertsFree {} events :=
  h.imp Marked (fun _ _ => marked_step) (fun _ _ => Marked.insertsFree) marked_init

/-! ## Runs that leave a name to two stations -/

/-- Two approvals read the request before either has inserted its station. -/
def overlapping : List Event :=
  [.upsert "A", .approveRequest 0 "A" {}, .approveRequest 1 "A" {}, .approve 0 .ok,
    .approve 1 .ok]

/-- An approved request is rejected, restored and approved again. -/
def reopened : List Event :=
  [.upsert "A", .approveRequest 0 "A" {}, .approve 0 .ok, .rejectRequest "A" none .ok,
    .restoreRequest "A" .ok, .approveRequest 0 "A" {}, .approve 0 .ok]

/-- A station is created by hand twice. -/
def createdTwice : List Event :=
  [.createStation { stationName := "A" } .ok, .createStation { stationName := "A" } .ok]

instance (db : GatewayDb) : Decidable (NamesUnique db) :=
  inferInstanceAs (Decidable (∀ x ∈ db.stations.rows, ∀ y ∈ db.stations.rows, _))

theorem not_unambiguous_overlapping :
    ¬ Unambiguous overlapping ∧ ¬ Unambiguous reopened ∧ ¬ Unambiguous createdTwice := by
  refine ⟨fun h => ?_, fun h => ?_, fun h => ?_⟩
  · exact absurd (h.names overlapping List.prefix_rfl) (by decide +kernel)
  · exact absurd (h.names reopened List.prefix_rfl) (by decide +kernel)
  · exact absurd (h.names createdTwice List.prefix_rfl) (by decide +kernel)

end DustMonitoring.AdminUi
