import DustMonitoring.Egress.System
import DustMonitoring.Lib.Json

/-!
# What the sink receives

`sink.write` gets the row as a dict, and passes its values on as the
parameters of an `INSERT`.  In the first attempt the dict is the one that
`_build_row` made.  In a replay it went through `json.dumps` with
`default=str` and through `json.loads`.

* `loads_dumps`: the replayed dict is the dict of the payload in the
  outbox, so the rows of the process model are the rows the sink gets.
* `Attempted` is what holds of the outbox and of a drain: each payload was
  encoded from the row of one `send_record`.
* `replay_eq_send_iff`: a replay passes on the parameters of the first
  attempt if and only if the measurement has no `sensor_datetime`.
-/

namespace DustMonitoring.Egress

open DustMonitoring.Lib DustMonitoring.Schema

/-! ## The row as a dict -/

/-- A value of the row: one that JSON has as well, or a datetime. -/
inductive PyValue where
  | plain (j : Json)
  | datetime (t : DateTime)

/-- `None`, or the value. -/
def PyValue.ofOption {α : Type} (f : α → Json) (o : Option α) : PyValue :=
  .plain ((o.map f).getD .null)

/-- The value of a timestamp column. -/
def Stamp.value : Stamp → PyValue
  | .datetime t => .datetime t
  | .text s => .plain (.str s)

open PyValue in
/-- The dict of a row.  Its keys are the columns of `t_inspection`. -/
def TInspection.dict (v : TInspection) : List (String × PyValue) :=
  [("inspection_datetime", (v.inspectionDatetime.map Stamp.value).getD (.plain .null)),
    ("event_id", ofOption .int v.eventId),
    ("sensor_type", ofOption .int v.sensorType),
    ("sensor_index", ofOption .int v.sensorIndex),
    ("target_index", ofOption .int v.targetIndex),
    ("inspection_value", ofOption .str v.inspectionValue),
    ("waypoint_x", ofOption .float v.waypointX),
    ("waypoint_y", ofOption .float v.waypointY),
    ("waypoint_z", ofOption .float v.waypointZ),
    ("location_id", ofOption .int v.locationId),
    ("map_id", ofOption .int v.mapId),
    ("navigation_id", ofOption .int v.navigationId),
    ("exec_id", ofOption .int v.execId),
    ("plant_id", ofOption .int v.plantId),
    ("target_id", ofOption .int v.targetId),
    ("ugv_id", ofOption .int v.ugvId),
    ("waypoint_id", ofOption .int v.waypointId),
    ("inspection_loacl_id", ofOption .int v.inspectionLoaclId),
    ("inspection_pan", ofOption .int v.inspectionPan),
    ("inspection_tilt", ofOption .int v.inspectionTilt),
    ("inspection_lift", ofOption .int v.inspectionLift),
    ("object_id", ofOption .int v.objectId),
    ("rot_x", ofOption .float v.rotX),
    ("rot_y", ofOption .float v.rotY),
    ("rot_z", ofOption .float v.rotZ),
    ("rot_w", ofOption .float v.rotW),
    ("image_data", ofOption .str v.imageData)]

/-- `json.dumps(values, default=str)`, as the object that its text denotes.
`default` is asked for the values that JSON does not have. -/
def dumps (S : Sender) (values : List (String × PyValue)) :
    List (String × Json) :=
  values.map fun (key, value) =>
    match value with
    | .plain j => (key, j)
    | .datetime t => (key, .str (S.strDatetime t))

/-- `json.loads(payload)`. -/
def loads (payload : List (String × Json)) : List (String × PyValue) :=
  payload.map fun (key, j) => (key, .plain j)

/-- What `sink.write` hands to the cursor. -/
structure Statement where
  sql : String
  params : List PyValue

/-- `MariaDbSink.write`. -/
def writeStatement (table : String) (values : List (String × PyValue)) :
    Statement :=
  let cols := values.map Prod.fst
  let placeholders := ", ".intercalate (List.replicate cols.length "%s")
  let colList := ", ".intercalate (cols.map fun c => "`" ++ c ++ "`")
  { sql := "INSERT INTO `" ++ table ++ "` (" ++ colList ++ ") VALUES (" ++
      placeholders ++ ")"
    params := values.map Prod.snd }

/-- The statement of the first attempt of `send_record`. -/
def sentStatement (S : Sender) (table : String) (rec : Decision)
    (dust : DustInspection) : Statement :=
  writeStatement table (buildRow S rec dust).dict

/-- The statement of a replay of what `send_record` put into the outbox. -/
def replayedStatement (S : Sender) (table : String) (rec : Decision)
    (dust : DustInspection) : Statement :=
  writeStatement table (loads (dumps S (buildRow S rec dust).dict))

/-- The replayed dict is the dict of the payload. -/
theorem loads_dumps (S : Sender) (v : TInspection) :
    loads (dumps S v.dict) = (jsonRow S v).dict := by
  have hstamp : ∀ o : Option Stamp,
      loads (dumps S [("inspection_datetime",
          (o.map Stamp.value).getD (.plain .null))]) =
        [("inspection_datetime",
          ((o.map fun
            | .datetime t => Stamp.text (S.strDatetime t)
            | .text s => .text s).map Stamp.value).getD (.plain .null))] := by
    intro o
    cases o with
    | none => rfl
    | some stamp => cases stamp <;> rfl
  exact congrArg (· ++ v.dict.tail) (hstamp v.inspectionDatetime)

/-- The keys do not depend on the values. -/
theorem map_fst_dict (v w : TInspection) :
    v.dict.map Prod.fst = w.dict.map Prod.fst := rfl

/-- A row with a timestamp does not survive the JSON, any other row does. -/
theorem dict_jsonRow_iff (S : Sender) (rec : Decision) (dust : DustInspection) :
    (jsonRow S (buildRow S rec dust)).dict = (buildRow S rec dust).dict ↔
      dust.sensorDatetime = none := by
  cases hdt : dust.sensorDatetime with
  | none =>
    refine iff_of_true ?_ rfl
    have hrow : jsonRow S (buildRow S rec dust) = buildRow S rec dust := by
      simp [jsonRow, buildRow, hdt]
    rw [hrow]
  | some t =>
    refine iff_of_false (fun h => ?_) (Option.some_ne_none t)
    have hsent : (buildRow S rec dust).inspectionDatetime =
        some (.datetime t) := by
      simp [buildRow, hdt]
    have hreplayed : (jsonRow S (buildRow S rec dust)).inspectionDatetime =
        some (.text (S.strDatetime t)) := by
      simp [jsonRow, buildRow, hdt]
    have hhead := congrArg Prod.snd (List.cons.inj h).1
    simp only [hsent, hreplayed, Option.map_some, Option.getD_some] at hhead
    exact absurd hhead PyValue.noConfusion

/-- The statement tells the dicts of two rows apart. -/
theorem writeStatement_dict_inj {table : String} {v w : TInspection} :
    writeStatement table v.dict = writeStatement table w.dict ↔
      v.dict = w.dict := by
  refine ⟨fun h => ?_, congrArg _⟩
  have hparams : v.dict.map Prod.snd = w.dict.map Prod.snd :=
    congrArg Statement.params h
  rw [List.zip_of_prod (map_fst_dict v w) hparams]
  exact (List.zip_of_prod rfl rfl).symm

/-! ## The send that a replay repeats -/

/-- What a run has read so far for one decision: the record and the
measurement that `send_record` last had in hand, and those from which the
payload in the outbox was encoded. -/
structure Attempt where
  read : Option (Decision × DustInspection) := none
  stored : Option (Decision × DustInspection) := none

variable (S : Sender) (d : Nat)

/-- The attempts after the event.  `INSERT OR IGNORE` stores a payload only
if the outbox has none for the decision. -/
def noteAttempt (w : World) (e : Event) (a : Attempt) : Attempt :=
  match w.pc with
  | .fetchDust dustId rec _ =>
    if rec.id = d then
      { a with
        read := (w.stores.gw.dustInspection.find? dustId).map fun dust =>
          (rec, dust) }
    else a
  | .add rec _ _ =>
    if rec.id = d ∧ ¬ w.stores.Outboxed d ∧ (step S w e).stores.Outboxed d then
      { a with
        stored := a.read }
    else a
  | _ => a

/-- The run of the world with the attempts for the decision. -/
def attempted (w : World) (es : List Event) : World × Attempt :=
  run (withHistory (step S) (noteAttempt S d)) (w, {}) es

variable {S d}

/-- The rows that the rest of a drain replays. -/
def Cont.replays : Cont → List (Nat × TInspection)
  | .drain rows => rows.map fun row => (row.decisionId, row.payload)
  | .tick _ => []

/-- The rows that the process replays or still has to replay. -/
def Pc.replays : Pc → List (Nat × TInspection)
  | .write decisionId values (.drain rows) =>
    (decisionId, values) :: (Cont.drain rows).replays
  | .remove _ k | .mark _ k => k.replays
  | _ => []

theorem Pc.Quiet.replays {pc : Pc} (h : pc.Quiet) : pc.replays = [] := by
  cases pc <;> first | rfl | exact h.elim

theorem Cont.replays_next (k : Cont) : k.next.replays = k.replays := by
  cases k with
  | drain rows => cases rows <;> rfl
  | tick records =>
    cases records with
    | nil => rfl
    | cons rec rest =>
      rw [next]
      split <;> rfl

/-- A drain replays what it has read from the outbox. -/
theorem Pc.mem_replays_resume {s : Stores} {pc : Pc} {p : Nat × TInspection}
    (h : p ∈ (pc.resume S s).replays) :
    p ∈ pc.replays ∨ pc = .listOutbox ∧
      ∃ row ∈ s.outbox.rows, p = (row.decisionId, row.payload) := by
  cases pc with
  | listOutbox =>
    rw [resume, Cont.replays_next] at h
    obtain ⟨row, hrow, hp⟩ := List.mem_map.mp h
    exact Or.inr ⟨rfl, row, hrow, hp.symm⟩
  | fetchPending =>
    rw [resume, Cont.replays_next] at h
    contradiction
  | skip why rec rest =>
    rw [resume, Cont.replays_next] at h
    contradiction
  | mark decisionId k =>
    rw [resume, Cont.replays_next] at h
    exact Or.inl h
  | write decisionId values k =>
    cases k with
    | drain rows => exact Or.inl (List.mem_cons_of_mem _ h)
    | tick records => contradiction
  | remove decisionId k => exact Or.inl h
  | fetchDust dustId rec rest =>
    simp only [resume, sendRecord] at h
    split at h
    · contradiction
    · split at h <;> contradiction
  | _ => contradiction

/-- What the outbox and a drain hold of the decision was encoded from the
row of one `send_record`, and a first attempt has the row of the last. -/
structure Attempted (S : Sender) (d : Nat) (w : World) (a : Attempt) :
    Prop where
  add : ∀ rec values rest, w.pc = .add rec values rest → rec.id = d →
    ∃ dust, a.read = some (rec, dust) ∧ values = buildRow S rec dust
  send : ∀ values rest, w.pc = .write d values (.tick rest) →
    ∃ rec dust, rec.id = d ∧ a.read = some (rec, dust) ∧
      values = buildRow S rec dust
  outbox : ∀ row ∈ w.stores.outbox.rows, row.decisionId = d →
    ∃ rec dust, rec.id = d ∧ a.stored = some (rec, dust) ∧
      row.payload = jsonRow S (buildRow S rec dust)
  replays : ∀ values, (d, values) ∈ w.pc.replays →
    ∃ rec dust, rec.id = d ∧ a.stored = some (rec, dust) ∧
      values = jsonRow S (buildRow S rec dust)

/-- The process adds what `send_record` has built from the measurement. -/
theorem Pc.resume_eq_add {s : Stores} {pc : Pc} {rec : Decision}
    {values : TInspection} {rest : List Decision}
    (h : pc.resume S s = .add rec values rest) :
    ∃ dustId dust, pc = .fetchDust dustId rec rest ∧
      s.gw.dustInspection.find? dustId = some dust ∧
      values = buildRow S rec dust := by
  cases pc.resume_cases S s with
  | add dustId dust rec' rest' hpc hfound hk =>
    rw [hk] at h
    obtain ⟨rfl, rfl, rfl⟩ := Pc.add.inj h
    exact ⟨dustId, dust, hpc, hfound, rfl⟩
  | next k hk =>
    rw [hk] at h
    rcases k.next_cases with h' | ⟨_, _, -, h'⟩ | ⟨_, _, h'⟩ | ⟨_, _, _, h'⟩ <;>
      simp [h'] at h
  | down hk => simp [hk] at h
  | idle hk => simp [hk] at h
  | skip why rec' rest' hk => simp [hk] at h
  | write rec' values' rest' hpc hk => simp [hk] at h
  | remove decisionId values' k hpc hk => simp [hk] at h
  | mark decisionId k hpc hk => simp [hk] at h

/-- The first attempt of a decision comes after its `Outbox.add`. -/
theorem Pc.resume_eq_write_tick {s : Stores} {pc : Pc}
    {values : TInspection} {rest : List Decision}
    (h : pc.resume S s = .write d values (.tick rest)) :
    ∃ rec, rec.id = d ∧ pc = .add rec values rest := by
  cases pc.resume_cases S s with
  | write rec values' rest' hpc hk =>
    rw [hk] at h
    obtain ⟨hid, rfl, hrest⟩ := Pc.write.inj h
    obtain rfl := Cont.tick.inj hrest
    exact ⟨rec, hid, hpc⟩
  | next k hk =>
    rw [hk] at h
    rcases k.next_cases with h' | ⟨_, _, -, h'⟩ | ⟨_, _, h'⟩ | ⟨_, _, _, h'⟩ <;>
      simp [h'] at h
  | down hk => simp [hk] at h
  | idle hk => simp [hk] at h
  | skip why rec' rest' hk => simp [hk] at h
  | add dustId dust rec' rest' hpc hfound hk => simp [hk] at h
  | remove decisionId values' k hpc hk => simp [hk] at h
  | mark decisionId k hpc hk => simp [hk] at h

/-- Only an `add` changes what is known of the stored payload. -/
theorem stored_noteAttempt {w : World} {e : Event} {a : Attempt}
    (h : ∀ rec values rest, w.pc = .add rec values rest → rec.id = d →
      w.stores.Outboxed d ∨ ¬ (step S w e).stores.Outboxed d) :
    (noteAttempt S d w e a).stored = a.stored := by
  unfold noteAttempt
  split
  · split <;> rfl
  · next rec values rest hpc =>
    rw [if_neg]
    intro hc
    rcases h rec values rest hpc hc.1 with hout | hout
    · exact hc.2.1 hout
    · exact hout hc.2.2
  · rfl

theorem read_noteAttempt {w : World} {e : Event} {a : Attempt}
    (h : ∀ dustId rec rest, w.pc ≠ .fetchDust dustId rec rest) :
    (noteAttempt S d w e a).read = a.read := by
  unfold noteAttempt
  split
  · next dustId rec rest hpc => exact absurd hpc (h dustId rec rest)
  · split <;> rfl
  · rfl

theorem Attempted.add_step {w : World} {a : Attempt} (ha : Attempted S d w a)
    (e : Event) {rec : Decision} {values : TInspection}
    {rest : List Decision} (hpc : (step S w e).pc = .add rec values rest)
    (hid : rec.id = d) :
    ∃ dust, (noteAttempt S d w e a).read = some (rec, dust) ∧
      values = buildRow S rec dust := by
  cases step_cases (S := S) w e with
  | others pc =>
    rw [pc] at hpc
    rw [read_noteAttempt fun _ _ _ h => by rw [hpc] at h; contradiction]
    exact ha.add rec values rest hpc hid
  | quiet pc => rw [hpc] at pc; exact pc.elim
  | fault _ _ pc => rw [hpc] at pc; exact pc.elim
  | reply now pc =>
    rw [pc] at hpc
    obtain ⟨dustId, dust, hfetch, hfound, hvalues⟩ := Pc.resume_eq_add hpc
    refine ⟨dust, ?_, hvalues⟩
    simp [noteAttempt, hfetch, hid, hfound]

theorem Attempted.send_step {w : World} {a : Attempt} (ha : Attempted S d w a)
    (e : Event) {values : TInspection} {rest : List Decision}
    (hpc : (step S w e).pc = .write d values (.tick rest)) :
    ∃ rec dust, rec.id = d ∧
      (noteAttempt S d w e a).read = some (rec, dust) ∧
      values = buildRow S rec dust := by
  cases step_cases (S := S) w e with
  | others pc =>
    rw [pc] at hpc
    rw [read_noteAttempt fun _ _ _ h => by rw [hpc] at h; contradiction]
    exact ha.send values rest hpc
  | quiet pc => rw [hpc] at pc; exact pc.elim
  | fault _ _ pc => rw [hpc] at pc; exact pc.elim
  | reply now pc =>
    rw [pc] at hpc
    obtain ⟨rec, hid, hadd⟩ := Pc.resume_eq_write_tick hpc
    obtain ⟨dust, hread, hvalues⟩ := ha.add rec values rest hadd hid
    refine ⟨rec, dust, hid, ?_, hvalues⟩
    rw [read_noteAttempt fun _ _ _ h => by rw [hadd] at h; contradiction]
    exact hread

/-- A payload of the decision was there before, and is the one payload of
it, or it is the one that was added now. -/
theorem Attempted.outbox_step {w : World} {a : Attempt}
    (ha : Attempted S d w a) (e : Event) {row : OutboxRow}
    (hrow : row ∈ (step S w e).stores.outbox.rows) (hid : row.decisionId = d) :
    ∃ rec dust, rec.id = d ∧
      (noteAttempt S d w e a).stored = some (rec, dust) ∧
      row.payload = jsonRow S (buildRow S rec dust) := by
  have hkept : ∀ row₀ ∈ w.stores.outbox.rows,
      row₀.decisionId = row.decisionId → row₀.payload = row.payload →
      ∃ rec dust, rec.id = d ∧
        (noteAttempt S d w e a).stored = some (rec, dust) ∧
        row.payload = jsonRow S (buildRow S rec dust) := by
    intro row₀ hrow₀ hid₀ hpayload
    rw [stored_noteAttempt fun _ _ _ _ _ =>
      Or.inl ⟨row₀, hrow₀, hid₀.trans hid⟩]
    rw [← hpayload]
    exact ha.outbox row₀ hrow₀ (hid₀.trans hid)
  have heffect : ∀ now, row ∈ (w.pc.effect S now w.stores).outbox.rows →
      ∃ rec dust, rec.id = d ∧
        (noteAttempt S d w e a).stored = some (rec, dust) ∧
        row.payload = jsonRow S (buildRow S rec dust) := by
    intro now h
    rcases Pc.mem_outbox_effect S now w.stores h with
      ⟨row₀, hrow₀, hid₀, hpayload⟩ |
      ⟨rec, values, rest, hpc, hrec, hpayload, hnew⟩
    · exact hkept row₀ hrow₀ hid₀ hpayload
    · have hrecd : rec.id = d := hrec.symm.trans hid
      obtain ⟨dust, hread, hvalues⟩ := ha.add rec values rest hpc hrecd
      refine ⟨rec, dust, hrecd, ?_, by rw [hpayload, hvalues]⟩
      have hnow : (step S w e).stores.Outboxed d := ⟨row, hrow, hid⟩
      have hbefore : ¬ w.stores.Outboxed d := hrecd ▸ hnew
      simp [noteAttempt, hpc, hrecd, hbefore, hnow, hread]
  cases step_cases (S := S) w e with
  | others _ outbox =>
    rw [outbox] at hrow
    exact hkept row hrow rfl rfl
  | quiet _ _ stores =>
    rw [stores] at hrow
    exact hkept row hrow rfl rfl
  | fault pe now _ stores =>
    have h := hrow
    rw [stores] at h
    split at h
    · exact heffect now h
    · exact hkept row h rfl rfl
  | reply now _ stores => exact heffect now (stores ▸ hrow)

theorem Attempted.replays_step {w : World} {a : Attempt}
    (ha : Attempted S d w a) (e : Event) {values : TInspection}
    (h : (d, values) ∈ (step S w e).pc.replays) :
    ∃ rec dust, rec.id = d ∧
      (noteAttempt S d w e a).stored = some (rec, dust) ∧
      values = jsonRow S (buildRow S rec dust) := by
  have hkept : (d, values) ∈ w.pc.replays →
      ∃ rec dust, rec.id = d ∧
        (noteAttempt S d w e a).stored = some (rec, dust) ∧
        values = jsonRow S (buildRow S rec dust) := by
    intro hmem
    rw [stored_noteAttempt fun _ _ _ hpc _ => by rw [hpc] at hmem; contradiction]
    exact ha.replays values hmem
  cases step_cases (S := S) w e with
  | others pc => exact hkept (pc ▸ h)
  | quiet pc => rw [pc.replays] at h; contradiction
  | fault _ _ pc => rw [pc.replays] at h; contradiction
  | reply now pc =>
    rw [pc] at h
    rcases Pc.mem_replays_resume h with h | ⟨hpc, row, hrow, hp⟩
    · exact hkept h
    · obtain ⟨hid, rfl⟩ := Prod.mk.inj hp
      rw [stored_noteAttempt fun _ _ _ hadd _ => by
        rw [hpc] at hadd; contradiction]
      exact ha.outbox row hrow hid.symm

/-- Every step keeps `Attempted`. -/
theorem Attempted.step {w : World} {a : Attempt} (ha : Attempted S d w a)
    (e : Event) :
    Attempted S d (Egress.step S w e) (noteAttempt S d w e a) where
  add := fun _ _ _ hpc hid => ha.add_step e hpc hid
  send := fun _ _ hpc => ha.send_step e hpc
  outbox := fun _ hrow hid => ha.outbox_step e hrow hid
  replays := fun _ h => ha.replays_step e h

theorem attempted_run (alarmMapping : Table AlarmMapping.id)
    (roleMapping : Table RoleMapping.detectionRole) (es : List Event) :
    Attempted S d
      (attempted S d (World.init alarmMapping roleMapping) es).1
      (attempted S d (World.init alarmMapping roleMapping) es).2 := by
  have hinit : Attempted S d (World.init alarmMapping roleMapping) {} := by
    refine ⟨fun _ _ _ h => by contradiction, fun _ _ h => by contradiction,
      fun row h => absurd h List.not_mem_nil, fun _ h => absurd h List.not_mem_nil⟩
  have hstep : ∀ (p : World × Attempt) e, Attempted S d p.1 p.2 →
      Attempted S d (withHistory (step S) (noteAttempt S d) p e).1
        (withHistory (step S) (noteAttempt S d) p e).2 :=
    fun _ e h => h.step e
  exact run_invariant hstep hinit es

/-! ## Replays and first attempts -/

/-- A first attempt of the decision has the row of the record and the
measurement that were read for it. -/
def SendsRow (S : Sender) (table : String) (d : Nat) (t : World × Attempt) :
    Prop :=
  ∀ values rest, t.1.pc = .write d values (.tick rest) →
    ∃ rec dust, rec.id = d ∧ t.2.read = some (rec, dust) ∧
      writeStatement table values.dict = sentStatement S table rec dust

/-- A replay of the decision passes on what the first attempt of the same
`send_record` passed on. -/
def ReplaysRow (S : Sender) (table : String) (d : Nat) (t : World × Attempt) :
    Prop :=
  ∀ values rest, t.1.pc = .write d values (.drain rest) →
    ∃ rec dust, rec.id = d ∧ t.2.stored = some (rec, dust) ∧
      writeStatement table values.dict = sentStatement S table rec dust

/-- If the process is at a replay of the decision, then the measurement
that its payload was encoded from has no `sensor_datetime`. -/
def ReplaysUndated (d : Nat) (t : World × Attempt) : Prop :=
  ∀ values rest, t.1.pc = .write d values (.drain rest) →
    ∀ source ∈ t.2.stored, source.2.sensorDatetime = none

theorem replayedStatement_eq_iff (S : Sender) (table : String)
    (rec : Decision) (dust : DustInspection) :
    replayedStatement S table rec dust = sentStatement S table rec dust ↔
      dust.sensorDatetime = none := by
  rw [replayedStatement, sentStatement, loads_dumps, writeStatement_dict_inj]
  exact dict_jsonRow_iff S rec dust

theorem replaysRow_iff {table : String} {t : World × Attempt}
    (h : Attempted S d t.1 t.2) :
    ReplaysRow S table d t ↔ ReplaysUndated d t := by
  have hreplay : ∀ values rest, t.1.pc = .write d values (.drain rest) →
      ∃ rec dust, rec.id = d ∧ t.2.stored = some (rec, dust) ∧
        writeStatement table values.dict = replayedStatement S table rec dust := by
    intro values rest hpc
    obtain ⟨rec, dust, hid, hstored, hvalues⟩ :=
      h.replays values (by rw [hpc]; exact List.mem_cons_self)
    refine ⟨rec, dust, hid, hstored, ?_⟩
    rw [hvalues, replayedStatement, loads_dumps]
  constructor
  · intro hrow values rest hpc source hsource
    obtain ⟨rec, dust, -, hstored, heq⟩ := hrow values rest hpc
    obtain ⟨rec', dust', -, hstored', heq'⟩ := hreplay values rest hpc
    obtain ⟨rfl, rfl⟩ := Prod.mk.inj (Option.some.inj (hstored.symm.trans hstored'))
    obtain rfl := Option.some.inj (hsource.symm.trans hstored)
    exact (replayedStatement_eq_iff S table _ _).mp (heq'.symm.trans heq)
  · intro hundated values rest hpc
    obtain ⟨rec, dust, hid, hstored, heq⟩ := hreplay values rest hpc
    refine ⟨rec, dust, hid, hstored, heq.trans ?_⟩
    exact (replayedStatement_eq_iff S table rec dust).mpr
      (hundated values rest hpc (rec, dust) hstored)

/-- For every record and measurement, and so at every replay of every run,
`sink.write` gets the statement of the first attempt again if and only if
the measurement has no `sensor_datetime`. -/
theorem replay_eq_send_iff (S : Sender) (table : String) :
    (∀ rec dust,
        replayedStatement S table rec dust = sentStatement S table rec dust ↔
          dust.sensorDatetime = none) ∧
      ∀ alarmMapping roleMapping d es,
        let t := attempted S d (World.init alarmMapping roleMapping) es
        SendsRow S table d t ∧ (ReplaysRow S table d t ↔ ReplaysUndated d t) := by
  refine ⟨replayedStatement_eq_iff S table, ?_⟩
  intro alarmMapping roleMapping d es t
  have h : Attempted S d t.1 t.2 := attempted_run alarmMapping roleMapping es
  refine ⟨fun values rest hpc => ?_, replaysRow_iff h⟩
  obtain ⟨rec, dust, hid, hread, rfl⟩ := h.send values rest hpc
  exact ⟨rec, dust, hid, hread, rfl⟩

/-- The first attempt passes on a datetime, the replay a text. -/
theorem not_replay_eq_send_dated :
    let S : Sender :=
      { strFloat := fun _ => ""
        strDatetime := fun _ => "2026-05-04 10:00:00+00:00" }
    let time : DateTime := { year := 2026, month := 5, day := 4, hour := 10 }
    let decided : Decision :=
      { id := 1, dustId := some 7, finalDecision := .caution, imageB64 := none }
    let dust : DustInspection :=
      { id := 7, receivedAt := 0, sensorDatetime := some time }
    (sentStatement S "t_inspection" decided dust).params.head? =
        some (.datetime time) ∧
      (replayedStatement S "t_inspection" decided dust).params.head? =
        some (.plain (.str "2026-05-04 10:00:00+00:00")) ∧
      replayedStatement S "t_inspection" decided dust ≠
        sentStatement S "t_inspection" decided dust := by
  refine ⟨rfl, rfl, fun h => ?_⟩
  have hhead := congrArg (fun s => s.params.head?) h
  exact absurd (Option.some.inj hhead) PyValue.noConfusion

end DustMonitoring.Egress
