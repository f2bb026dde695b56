import DustMonitoring.Egress.System

/-!
# Decide once, send what was decided

The verdict of a record is written under the guard that it is pending, so
it is written once.  The egress gateway reads it when a tick begins and
carries its code in local variables and through the outbox until the row
is committed.  `Faithful` says that every copy of the code, wherever it is
on the way, is still the code of the verdict.

* `decide_once`: the main result.
-/

namespace DustMonitoring.Egress

open DustMonitoring.Lib DustMonitoring.Schema DustMonitoring.DecisionAgent

/-! ## The code of a verdict -/

/-- The record is decided, and `event` is the code of its verdict. -/
def HasCode (db : DecisionDb) (d : Nat) (event : Option Int) : Prop :=
  ∃ x, db.decisionOf d = some x ∧ x ≠ .pending ∧ eventId x = event

theorem HasCode.unique {db : DecisionDb} {d : Nat} {a b : Option Int}
    (ha : HasCode db d a) (hb : HasCode db d b) : a = b := by
  obtain ⟨x, hx, -, rfl⟩ := ha
  obtain ⟨y, hy, -, rfl⟩ := hb
  rw [Option.some.inj (hx.symm.trans hy)]

theorem HasCode.keeps {db db' : DecisionDb} (h : db.Keeps db') {d : Nat}
    {event : Option Int} (hcode : HasCode db d event) : HasCode db' d event := by
  obtain ⟨x, hx, hne, hev⟩ := hcode
  exact ⟨x, h.decided d x hx hne, hne, hev⟩

theorem HasCode.effect {S : Sender} {pc : Pc} {now : Timestamp} {s : Stores}
    {d : Nat} {event : Option Int} (h : HasCode s.db d event) :
    HasCode (pc.effect S now s).db d event := by
  obtain ⟨x, hx, hne, hev⟩ := h
  exact ⟨x, (Pc.decisionOf_effect S now s d pc).trans hx, hne, hev⟩

theorem HasCode.record_isSome {db : DecisionDb} {d : Nat} {event : Option Int}
    (h : HasCode db d event) : (db.record d).isSome := by
  obtain ⟨x, hx, -⟩ := h
  obtain ⟨r, hr, -⟩ := Option.map_eq_some_iff.mp hx
  rw [hr]
  rfl

/-! ## What the process carries -/

/-- The rest of a loop carries the codes of its decisions. -/
def Cont.Carries (db : DecisionDb) : Cont → Prop
  | .drain rows => ∀ row ∈ rows, HasCode db row.decisionId row.payload.eventId
  | .tick records => ∀ rec ∈ records, HasCode db rec.id (eventId rec.finalDecision)

/-- The process carries the codes of its decisions, and has filtered them
by the allowed ones. -/
def Pc.Carries (S : Sender) (db : DecisionDb) : Pc → Prop
  | .down | .listOutbox | .idle | .fetchPending | .bump _ _ => True
  | .fetchDust _ rec rest => (Cont.tick (rec :: rest)).Carries db
  | .skip why rec rest =>
    (Cont.tick (rec :: rest)).Carries db ∧
      (why = .skippedEventId → S.allows (eventId rec.finalDecision) = false)
  | .add rec values rest =>
    (Cont.tick (rec :: rest)).Carries db ∧
      values.eventId = eventId rec.finalDecision ∧ S.allows values.eventId = true
  | .write decisionId values k =>
    HasCode db decisionId values.eventId ∧ k.Carries db
  | .remove decisionId k | .mark decisionId k =>
    (∃ event, HasCode db decisionId event) ∧ k.Carries db

/-- The stores hold the codes of the verdicts. -/
structure Stores.Faithful (S : Sender) (s : Stores) : Prop where
  outbox : ∀ row ∈ s.outbox.rows,
    HasCode s.db row.decisionId row.payload.eventId ∧
      S.allows row.payload.eventId = true
  loas : ∀ r ∈ s.loas, HasCode s.db r.decisionId r.values.eventId
  sent : ∀ d, s.db.isSent d = true → ∃ event, HasCode s.db d event

/-- Every copy of a code is the code of the verdict. -/
structure World.Faithful (S : Sender) (w : World) : Prop where
  stores : w.stores.Faithful S
  pc : w.pc.Carries S w.stores.db

variable {S : Sender}

theorem Cont.Carries.mono {db db' : DecisionDb} {k : Cont}
    (hcode : ∀ {d event}, HasCode db d event → HasCode db' d event)
    (h : k.Carries db) : k.Carries db' := by
  cases k with
  | drain rows => exact fun row hrow => hcode (h row hrow)
  | tick records => exact fun rec hrec => hcode (h rec hrec)

theorem Pc.Carries.mono {db db' : DecisionDb} {pc : Pc}
    (hcode : ∀ {d event}, HasCode db d event → HasCode db' d event)
    (h : pc.Carries S db) : pc.Carries S db' := by
  cases pc with
  | down => trivial
  | listOutbox => trivial
  | idle => trivial
  | fetchPending => trivial
  | bump decisionId k => trivial
  | fetchDust dustId rec rest =>
    have hrecs : (Cont.tick (rec :: rest)).Carries db := h
    exact hrecs.mono hcode
  | skip why rec rest => exact ⟨h.1.mono hcode, h.2⟩
  | add rec values rest => exact ⟨h.1.mono hcode, h.2⟩
  | write decisionId values k => exact ⟨hcode h.1, h.2.mono hcode⟩
  | remove decisionId k =>
    exact ⟨h.1.imp fun _ => hcode, h.2.mono hcode⟩
  | mark decisionId k =>
    exact ⟨h.1.imp fun _ => hcode, h.2.mono hcode⟩

theorem Pc.Quiet.carries {pc : Pc} (h : pc.Quiet) (db : DecisionDb) :
    pc.Carries S db := by
  cases pc <;> trivial

theorem Cont.Carries.next {db : DecisionDb} {k : Cont} (h : k.Carries db) :
    k.next.Carries S db := by
  cases k with
  | drain rows =>
    cases rows with
    | nil => trivial
    | cons row rest =>
      exact ⟨h row List.mem_cons_self,
        fun r hr => h r (List.mem_cons_of_mem row hr)⟩
  | tick records =>
    cases records with
    | nil => trivial
    | cons rec rest =>
      rw [Cont.next]
      split
      · exact ⟨h, fun heq => by contradiction⟩
      · exact h

theorem Cont.Carries.tail {db : DecisionDb} {rec : Decision}
    {rest : List Decision} (h : (Cont.tick (rec :: rest)).Carries db) :
    (Cont.tick rest).Carries db :=
  fun r hr => h r (List.mem_cons_of_mem rec hr)

theorem carries_sendRecord {db : DecisionDb} {rec : Decision}
    {rest : List Decision} (h : (Cont.tick (rec :: rest)).Carries db)
    (dust : Option DustInspection) :
    (sendRecord S dust rec rest).Carries S db := by
  unfold sendRecord
  split
  · exact ⟨h, fun heq => by contradiction⟩
  · dsimp only
    split
    · next hallowed => exact ⟨h, rfl, hallowed⟩
    · next hallowed => exact ⟨h, fun _ => Bool.eq_false_of_not_eq_true hallowed⟩

/-- What the process carries when its operation has returned. -/
theorem carries_resume {s : Stores} {pc : Pc} (hs : s.Faithful S)
    (h : pc.Carries S s.db) : (pc.resume S s).Carries S s.db := by
  cases pc with
  | down => trivial
  | idle => trivial
  | bump decisionId k => trivial
  | listOutbox =>
    apply Cont.Carries.next
    intro row hrow
    exact (hs.outbox row hrow).1
  | fetchPending =>
    apply Cont.Carries.next
    intro rec hrec
    obtain ⟨hx, hne, -⟩ := mem_fetchPending hrec
    exact ⟨rec.finalDecision, hx, hne, rfl⟩
  | fetchDust dustId rec rest => exact carries_sendRecord h _
  | skip why rec rest => exact h.1.tail.next
  | add rec values rest =>
    refine ⟨?_, h.1.tail⟩
    rw [h.2.1]
    exact h.1 rec List.mem_cons_self
  | write decisionId values k => exact ⟨⟨_, h.1⟩, h.2⟩
  | remove decisionId k => exact h
  | mark decisionId k => exact h.2.next

/-- The decision that is marked as sent is decided. -/
theorem hasCode_of_marks {s : Stores} {pc : Pc} {d : Nat}
    (h : pc.Carries S s.db) (hmarks : pc.marks = some d) :
    ∃ event, HasCode s.db d event := by
  cases pc with
  | skip why rec rest =>
    obtain rfl := Option.some.inj hmarks
    exact ⟨_, h.1 rec List.mem_cons_self⟩
  | mark decisionId k =>
    obtain rfl := Option.some.inj hmarks
    exact h.1
  | _ => contradiction

/-- An operation writes the codes that the process carries. -/
theorem Stores.Faithful.effect {s : Stores} {pc : Pc} (now : Timestamp)
    (hs : s.Faithful S) (hpc : pc.Carries S s.db) :
    (pc.effect S now s).Faithful S where
  outbox := by
    intro row hrow
    rcases Pc.mem_outbox_effect S now s hrow with
      ⟨row₀, hrow₀, hid, hpayload⟩ | ⟨rec, values, rest, rfl, hid, hpayload, -⟩
    · rw [← hid, ← hpayload]
      exact ⟨(hs.outbox row₀ hrow₀).1.effect, (hs.outbox row₀ hrow₀).2⟩
    · obtain ⟨hrecs, hevent, hallowed⟩ := hpc
      rw [hid, hpayload]
      refine ⟨HasCode.effect ?_, hallowed⟩
      show HasCode s.db rec.id values.eventId
      rw [hevent]
      exact hrecs rec List.mem_cons_self
  loas := by
    intro r hr
    rcases Pc.mem_loas_effect S now s hr with hr | ⟨k, rfl⟩
    · exact (hs.loas r hr).effect
    · exact hpc.1.effect
  sent := by
    intro d hd
    rcases (Pc.isSent_effect S now s d pc).mp hd with hd | ⟨hmarks, -⟩
    · exact (hs.sent d hd).imp fun _ => HasCode.effect
    · exact (hasCode_of_marks hpc hmarks).imp fun _ => HasCode.effect

/-! ## Over a run -/

theorem faithful_init (alarmMapping : Table AlarmMapping.id)
    (roleMapping : Table RoleMapping.detectionRole) :
    (World.init alarmMapping roleMapping).Faithful S where
  stores :=
    { outbox := fun row hrow => absurd hrow List.not_mem_nil
      loas := fun r hr => absurd hr List.not_mem_nil
      sent := fun d hd => by
        obtain ⟨r, hr, -⟩ := DecisionDb.isSent_iff.mp hd
        exact absurd (Table.find?_eq_some_iff.mp hr).1 List.not_mem_nil }
  pc := trivial

theorem World.Faithful.step {w : World} (h : w.Faithful S) (e : Event) :
    (Egress.step S w e).Faithful S := by
  cases step_cases (S := S) w e with
  | others pc outbox loas db =>
    constructor
    · constructor
      · rw [outbox]
        intro row hrow
        exact ⟨(h.stores.outbox row hrow).1.keeps db, (h.stores.outbox row hrow).2⟩
      · rw [loas]
        intro r hr
        exact (h.stores.loas r hr).keeps db
      · intro d hd
        rw [db.sent d] at hd
        exact (h.stores.sent d hd).imp fun _ => HasCode.keeps db
    · rw [pc]
      exact h.pc.mono (HasCode.keeps db)
  | quiet pc _ stores =>
    refine ⟨?_, pc.carries _⟩
    rw [stores]
    exact h.stores
  | fault pe now pc stores =>
    refine ⟨?_, pc.carries _⟩
    rw [stores]
    split
    · exact h.stores.effect now h.pc
    · exact h.stores
  | reply now pc stores =>
    constructor
    · rw [stores]
      exact h.stores.effect now h.pc
    · rw [pc, stores]
      exact (carries_resume h.stores h.pc).mono HasCode.effect

theorem faithful_run {w : World} (h : w.Faithful S) (es : List Event) :
    (run (step S) w es).Faithful S :=
  run_invariant (fun _ e hw => hw.step e) h es

/-! ## The verdict is written once -/

/-- The record under the id is decided. -/
def isDecided (w : World) (d : Nat) : Bool :=
  (w.stores.db.decisionOf d).any fun x => x != .pending

theorem isDecided_iff {w : World} {d : Nat} :
    isDecided w d = true ↔
      ∃ x, w.stores.db.decisionOf d = some x ∧ x ≠ .pending := by
  unfold isDecided
  cases w.stores.db.decisionOf d <;> simp

/-- The records that the event decides. -/
def verdicts (S : Sender) (w : World) (e : Event) : List Nat :=
  ((step S w e).stores.db.decisionRecord.rows.map DecisionRecord.id).filter
    fun d => !isDecided w d && isDecided (step S w e) d

/-- No step changes a verdict. -/
theorem decisionOf_step (w : World) (e : Event) {d : Nat} {x : DecisionResult}
    (hx : w.stores.db.decisionOf d = some x) (hne : x ≠ .pending) :
    (step S w e).stores.db.decisionOf d = some x := by
  cases step_cases (S := S) w e with
  | others _ _ _ db => exact db.decided d x hx hne
  | quiet _ _ stores => rw [stores, hx]
  | fault pe now _ stores =>
    rw [stores]
    split
    · rw [Pc.decisionOf_effect, hx]
    · exact hx
  | reply now _ stores => rw [stores, Pc.decisionOf_effect, hx]

theorem decisionOf_run (w : World) (es : List Event) {d : Nat}
    {x : DecisionResult} (hx : w.stores.db.decisionOf d = some x)
    (hne : x ≠ .pending) :
    (run (step S) w es).stores.db.decisionOf d = some x := by
  have hstep : ∀ w e, w.stores.db.decisionOf d = some x →
      (step S w e).stores.db.decisionOf d = some x :=
    fun w e h => decisionOf_step w e h hne
  exact run_invariant hstep hx es

theorem isDecided_step {w : World} {d : Nat} (e : Event)
    (h : isDecided w d = true) : isDecided (step S w e) d = true := by
  obtain ⟨x, hx, hne⟩ := isDecided_iff.mp h
  exact isDecided_iff.mpr ⟨x, decisionOf_step w e hx hne, hne⟩

/-- Over a run no record is decided twice. -/
theorem nodup_verdicts (w : World) (es : List Event) :
    (outputs (step S) (verdicts S) w es).Nodup := by
  refine nodup_outputs (fun _ => True) (fun w d => isDecided w d = true)
    ?_ ?_ ?_ ?_ ?_ trivial es
  · intro w e _
    trivial
  · intro w e _
    exact (step S w e).stores.db.decisionRecord.nodup.filter _
  · intro w e d _ hd hdone
    have hnot := (List.mem_filter.mp hd).2
    rw [hdone] at hnot
    contradiction
  · intro w e d _ hd
    have hafter := (List.mem_filter.mp hd).2
    exact (Bool.and_eq_true_iff.mp hafter).2
  · intro w e d _ hdone
    exact isDecided_step e hdone

/-- Over every run of agents, admins, producer, channels and the egress
gateway with its crashes: no record is decided twice, a verdict never
changes, only decided records are marked as sent, and every row that LOAS
has carries the code of the verdict of its record. -/
theorem decide_once (S : Sender) (alarmMapping : Table AlarmMapping.id)
    (roleMapping : Table RoleMapping.detectionRole) (es : List Event) :
    (outputs (step S) (verdicts S) (World.init alarmMapping roleMapping)
        es).Nodup ∧
      (∀ pre post, es = pre ++ post → ∀ d x,
        (run (step S) (World.init alarmMapping roleMapping)
          pre).stores.db.decisionOf d = some x → x ≠ .pending →
        (run (step S) (World.init alarmMapping roleMapping)
          es).stores.db.decisionOf d = some x) ∧
      (∀ r ∈ (run (step S) (World.init alarmMapping roleMapping)
          es).stores.db.decisionRecord.rows,
        r.sentAt.isSome → r.finalDecision ≠ .pending) ∧
      (∀ row ∈ (run (step S) (World.init alarmMapping roleMapping)
          es).stores.loas, ∃ x,
        (run (step S) (World.init alarmMapping roleMapping)
          es).stores.db.decisionOf row.decisionId = some x ∧
        x ≠ .pending ∧ row.values.eventId = eventId x) := by
  have hinv := faithful_run (faithful_init (S := S) alarmMapping roleMapping) es
  refine ⟨nodup_verdicts _ es, ?_, ?_, ?_⟩
  · intro pre post hes d x hx hne
    rw [hes, run_append]
    exact decisionOf_run _ post hx hne
  · intro r hr hsent
    have hrecord := DecisionDb.record_of_mem hr
    obtain ⟨event, x, hx, hne, -⟩ := hinv.stores.sent r.id
      (DecisionDb.isSent_iff.mpr ⟨r, hrecord, hsent⟩)
    rw [DecisionDb.decisionOf, hrecord] at hx
    rw [Option.some.inj hx]
    exact hne
  · intro row hrow
    obtain ⟨x, hx, hne, hev⟩ := hinv.stores.loas row hrow
    exact ⟨x, hx, hne, hev.symm⟩

end DustMonitoring.Egress
