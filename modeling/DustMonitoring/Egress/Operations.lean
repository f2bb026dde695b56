import DustMonitoring.Egress.Sender

/-!
# What the operations of the egress gateway do

Every operation of the process that writes does one of four things to one
decision: it marks it as sent, adds it to the outbox, removes it from the
outbox, or commits a row for it.  `marks`, `adds`, `removes` and `writes`
name that decision, and one lemma for each store says what an operation
does to it in these terms.

`Pc.ids` are the decisions that the process still has to handle.  They
only become more when a tick or a drain begins.
-/

namespace DustMonitoring.Egress

open DustMonitoring.Lib DustMonitoring.Schema

/-! ## The stores -/

/-- The outbox holds the decision. -/
def Stores.Outboxed (s : Stores) (d : Nat) : Prop :=
  ∃ row ∈ s.outbox.rows, row.decisionId = d

instance (s : Stores) (d : Nat) : Decidable (s.Outboxed d) :=
  inferInstanceAs (Decidable (∃ row ∈ s.outbox.rows, row.decisionId = d))

/-- The number of rows that LOAS has for the decision. -/
def Stores.committed (s : Stores) (d : Nat) : Nat :=
  s.loas.countP fun r => decide (r.decisionId = d)

theorem Stores.mem_bumpAttempts {s : Stores} {d : Nat} {row : OutboxRow} :
    row ∈ (s.bumpAttempts d).outbox.rows ↔
      ∃ r ∈ s.outbox.rows, (if r.decisionId = d then
        { r with attempts := r.attempts + 1 } else r) = row := by
  simp [bumpAttempts]

theorem decisionOf_markSent (db : DecisionDb) (id : Nat) (now : Timestamp)
    (d : Nat) : (markSent db id now).decisionOf d = db.decisionOf d := by
  unfold DecisionDb.decisionOf markSent
  rw [DecisionDb.record_updateRecords, Option.map_map]
  congr 1
  funext r
  simp only [Function.comp]
  split <;> rfl

/-- `mark_sent` marks the one record, if there is one. -/
theorem isSent_markSent (db : DecisionDb) (id : Nat) (now : Timestamp)
    (d : Nat) :
    (markSent db id now).isSent d = true ↔
      db.isSent d = true ∨ (id = d ∧ (db.record d).isSome) := by
  unfold DecisionDb.isSent markSent
  rw [DecisionDb.record_updateRecords]
  cases h : db.record d with
  | none => simp
  | some r =>
    have hid : r.id = d := DecisionDb.id_of_record h
    by_cases heq : id = d
    · subst heq
      cases hsent : r.sentAt <;> simp [hid, hsent]
    · have hne : ¬ r.id = id := fun h' => heq (h'.symm.trans hid)
      simp [hne, heq]

namespace Pc

/-! ## What an operation is about -/

/-- The decision that the operation marks as sent. -/
def marks : Pc → Option Nat
  | .skip _ rec _ => some rec.id
  | .mark decisionId _ => some decisionId
  | _ => none

/-- The decision that the operation adds to the outbox. -/
def adds : Pc → Option Nat
  | .add rec _ _ => some rec.id
  | _ => none

/-- The decision that the operation removes from the outbox. -/
def removes : Pc → Option Nat
  | .remove decisionId _ => some decisionId
  | _ => none

/-- The decision that the operation commits a row for. -/
def writes : Pc → Option Nat
  | .write decisionId _ _ => some decisionId
  | _ => none

/-- The decision that was sent and is not yet marked. -/
def critical : Pc → Option Nat
  | .remove decisionId _ | .mark decisionId _ => some decisionId
  | _ => none

variable (S : Sender) (now : Timestamp) (s : Stores) (d : Nat)

theorem decisionOf_effect (pc : Pc) :
    (pc.effect S now s).db.decisionOf d = s.db.decisionOf d := by
  cases pc with
  | skip why rec rest => exact decisionOf_markSent s.db rec.id now d
  | mark decisionId k => exact decisionOf_markSent s.db decisionId now d
  | _ => rfl

theorem isSent_effect (pc : Pc) :
    (pc.effect S now s).db.isSent d = true ↔
      s.db.isSent d = true ∨ (pc.marks = some d ∧ (s.db.record d).isSome) := by
  cases pc with
  | skip why rec rest =>
    simp only [marks, Option.some.injEq]
    exact isSent_markSent s.db rec.id now d
  | mark decisionId k =>
    simp only [marks, Option.some.injEq]
    exact isSent_markSent s.db decisionId now d
  | _ => exact (or_iff_left (by simp [marks])).symm

theorem outboxed_effect (pc : Pc) :
    (pc.effect S now s).Outboxed d ↔
      (s.Outboxed d ∧ pc.removes ≠ some d) ∨ pc.adds = some d := by
  cases pc with
  | add rec values rest =>
    simp only [removes, adds, Option.some.injEq]
    constructor
    · intro h
      obtain ⟨row, hrow, hd⟩ := h
      rcases Table.mem_insert.mp hrow with hrow | ⟨rfl, -⟩
      · exact Or.inl ⟨⟨row, hrow, hd⟩, by simp⟩
      · exact Or.inr hd
    · intro h
      rcases h with ⟨⟨row, hrow, hd⟩, -⟩ | hd
      · exact ⟨row, Table.mem_insert.mpr (Or.inl hrow), hd⟩
      · obtain ⟨row, hrow, hkey⟩ := Table.exists_key_insert s.outbox
          { decisionId := rec.id, msgType := 0, payload := jsonRow S values }
        exact ⟨row, hrow, hkey.trans hd⟩
  | bump decisionId k =>
    simp only [removes, adds, reduceCtorEq, ne_eq, not_false_eq_true, and_true,
      or_false]
    constructor
    · intro h
      obtain ⟨row, hrow, hd⟩ := h
      obtain ⟨row₀, hrow₀, rfl⟩ := Stores.mem_bumpAttempts.mp hrow
      refine ⟨row₀, hrow₀, ?_⟩
      rw [← hd]
      split <;> rfl
    · intro h
      obtain ⟨row, hrow, hd⟩ := h
      refine ⟨_, Stores.mem_bumpAttempts.mpr ⟨row, hrow, rfl⟩, ?_⟩
      rw [← hd]
      split <;> rfl
  | remove decisionId k =>
    simp only [removes, adds, reduceCtorEq, or_false, ne_eq, Option.some.injEq]
    constructor
    · intro h
      obtain ⟨row, hrow, hd⟩ := h
      obtain ⟨hrow, hne⟩ := Table.mem_deleteWhere.mp hrow
      refine ⟨⟨row, hrow, hd⟩, fun heq => ?_⟩
      exact of_decide_eq_false hne (hd.trans heq.symm)
    · intro h
      obtain ⟨⟨row, hrow, hd⟩, hne⟩ := h
      refine ⟨row, Table.mem_deleteWhere.mpr ⟨hrow, ?_⟩, hd⟩
      exact decide_eq_false fun heq => hne (heq.symm.trans hd)
  | _ => simp [effect, removes, adds, Stores.commitRow, Stores.Outboxed]

/-- A row of the outbox was there before, or is the one that was added for
a decision that had none. -/
theorem mem_outbox_effect {pc : Pc} {row : OutboxRow}
    (h : row ∈ (pc.effect S now s).outbox.rows) :
    (∃ row₀ ∈ s.outbox.rows,
        row₀.decisionId = row.decisionId ∧ row₀.payload = row.payload) ∨
      ∃ rec values rest, pc = .add rec values rest ∧
        row.decisionId = rec.id ∧ row.payload = jsonRow S values ∧
        ¬ s.Outboxed rec.id := by
  cases pc with
  | add rec values rest =>
    rcases Table.mem_insert.mp h with h | ⟨rfl, hnew⟩
    · exact Or.inl ⟨row, h, rfl, rfl⟩
    · refine Or.inr ⟨rec, values, rest, rfl, rfl, rfl, fun hout => ?_⟩
      obtain ⟨row₀, hrow₀, hid⟩ := hout
      exact hnew row₀ hrow₀ hid
  | bump decisionId k =>
    obtain ⟨row₀, hrow₀, rfl⟩ := Stores.mem_bumpAttempts.mp h
    refine Or.inl ⟨row₀, hrow₀, ?_⟩
    split <;> exact ⟨rfl, rfl⟩
  | remove decisionId k =>
    exact Or.inl ⟨row, (Table.mem_deleteWhere.mp h).1, rfl, rfl⟩
  | _ => exact Or.inl ⟨row, h, rfl, rfl⟩

theorem committed_effect (pc : Pc) :
    (pc.effect S now s).committed d =
      s.committed d + if pc.writes = some d then 1 else 0 := by
  cases pc with
  | write decisionId values k =>
    simp [effect, writes, Stores.commitRow, Stores.committed,
      List.countP_cons]
  | _ => rfl

theorem mem_loas_effect {pc : Pc} {r : LoasRow}
    (h : r ∈ (pc.effect S now s).loas) :
    r ∈ s.loas ∨ ∃ k, pc = .write r.decisionId r.values k := by
  cases pc with
  | write decisionId values k =>
    rcases List.mem_append.mp h with h | h
    · exact Or.inl h
    · obtain rfl := List.mem_singleton.mp h
      exact Or.inr ⟨k, rfl⟩
  | _ => exact Or.inl h

end Pc

/-! ## The decisions that are still to be handled -/

/-- The decisions of the rest of a loop. -/
def Cont.ids : Cont → List Nat
  | .drain rows => rows.map OutboxRow.decisionId
  | .tick records => records.map Decision.id

/-- The decision at hand and those of the rest of the loop. -/
def Pc.ids : Pc → List Nat
  | .down | .listOutbox | .idle | .fetchPending | .bump _ _ => []
  | .fetchDust _ rec rest | .skip _ rec rest | .add rec _ rest =>
    rec.id :: rest.map Decision.id
  | .write decisionId _ k | .remove decisionId k | .mark decisionId k =>
    decisionId :: k.ids

/-- The next decision of a loop is looked up, skipped or replayed. -/
theorem Cont.next_cases (k : Cont) :
    k.next = .idle ∨
      (∃ row rows, k = .drain (row :: rows) ∧
        k.next = .write row.decisionId row.payload (.drain rows)) ∨
      (∃ rec rest, k.next = .skip .dustNotFound rec rest) ∨
      ∃ dustId rec rest, k.next = .fetchDust dustId rec rest := by
  cases k with
  | drain rows =>
    cases rows with
    | nil => exact Or.inl rfl
    | cons row rows => exact Or.inr (Or.inl ⟨row, rows, rfl, rfl⟩)
  | tick records =>
    cases records with
    | nil => exact Or.inl rfl
    | cons rec rest =>
      cases hdust : rec.dustId with
      | none =>
        exact Or.inr (Or.inr (Or.inl ⟨rec, rest, by rw [next, hdust]⟩))
      | some dustId =>
        exact Or.inr (Or.inr (Or.inr ⟨dustId, rec, rest, by rw [next, hdust]⟩))

@[simp] theorem Cont.ids_next (k : Cont) : k.next.ids = k.ids := by
  cases k with
  | drain rows => cases rows <;> rfl
  | tick records =>
    cases records with
    | nil => rfl
    | cons rec rest =>
      rw [next]
      split <;> rfl

@[simp] theorem ids_sendRecord (S : Sender) (dust : Option DustInspection)
    (rec : Decision) (rest : List Decision) :
    (sendRecord S dust rec rest).ids = rec.id :: rest.map Decision.id := by
  unfold sendRecord
  split
  · rfl
  · dsimp only
    split <;> rfl

namespace Pc

/-- Where the process can go on when its operation has returned. -/
inductive ResumeKind (S : Sender) (s : Stores) (pc : Pc) : Prop where
  | down (h : pc.resume S s = .down)
  | idle (h : pc.resume S s = .idle)
  | next (k : Cont) (h : pc.resume S s = k.next)
  | skip (why : Shortcut) (rec : Decision) (rest : List Decision)
    (h : pc.resume S s = .skip why rec rest)
  | add (dustId : Nat) (dust : DustInspection) (rec : Decision) (rest : List Decision)
    (hpc : pc = .fetchDust dustId rec rest)
    (hfound : s.gw.dustInspection.find? dustId = some dust)
    (h : pc.resume S s = .add rec (buildRow S rec dust) rest)
  | write (rec : Decision) (values : TInspection) (rest : List Decision)
    (hpc : pc = .add rec values rest)
    (h : pc.resume S s = .write rec.id values (.tick rest))
  | remove (decisionId : Nat) (values : TInspection) (k : Cont)
    (hpc : pc = .write decisionId values k) (h : pc.resume S s = .remove decisionId k)
  | mark (decisionId : Nat) (k : Cont) (hpc : pc = .remove decisionId k)
    (h : pc.resume S s = .mark decisionId k)

theorem resume_cases (S : Sender) (s : Stores) (pc : Pc) : ResumeKind S s pc := by
  cases pc with
  | down => exact .down rfl
  | idle => exact .idle rfl
  | bump decisionId k => exact .idle rfl
  | listOutbox => exact .next _ rfl
  | fetchPending => exact .next _ rfl
  | skip why rec rest => exact .next _ rfl
  | mark decisionId k => exact .next k rfl
  | add rec values rest => exact .write rec values rest rfl rfl
  | write decisionId values k => exact .remove decisionId values k rfl rfl
  | remove decisionId k => exact .mark decisionId k rfl rfl
  | fetchDust dustId rec rest =>
    cases hfound : s.gw.dustInspection.find? dustId with
    | none =>
      refine .skip .dustNotFound rec rest ?_
      rw [resume, hfound, sendRecord]
    | some dust =>
      by_cases hallowed : S.allows (buildRow S rec dust).eventId = true
      · refine .add dustId dust rec rest rfl hfound ?_
        rw [resume, hfound, sendRecord]
        exact if_pos hallowed
      · refine .skip .skippedEventId rec rest ?_
        rw [resume, hfound, sendRecord]
        exact if_neg hallowed

/-- A tick or a drain begins with what it has read.  Every other operation
leaves the list alone or takes its head off. -/
theorem ids_resume (S : Sender) (s : Stores) (pc : Pc) :
    (pc = .listOutbox ∧
        (pc.resume S s).ids = s.outbox.rows.map OutboxRow.decisionId) ∨
      (pc = .fetchPending ∧ (pc.resume S s).ids =
        (Egress.fetchPending s.db S.batchSize).map Decision.id) ∨
      ((pc.resume S s).ids = pc.ids ∧ pc.marks = none) ∨
      ∃ d, pc.ids = d :: (pc.resume S s).ids ∧ pc.marks = some d := by
  cases pc with
  | listOutbox => exact Or.inl ⟨rfl, Cont.ids_next _⟩
  | fetchPending => exact Or.inr (Or.inl ⟨rfl, Cont.ids_next _⟩)
  | fetchDust dustId rec rest =>
    exact Or.inr (Or.inr (Or.inl ⟨ids_sendRecord S _ rec rest, rfl⟩))
  | skip why rec rest =>
    refine Or.inr (Or.inr (Or.inr ⟨rec.id, ?_, rfl⟩))
    show _ = _ :: (Cont.tick rest).next.ids
    rw [Cont.ids_next]
    rfl
  | mark decisionId k =>
    refine Or.inr (Or.inr (Or.inr ⟨decisionId, ?_, rfl⟩))
    show _ = _ :: k.next.ids
    rw [Cont.ids_next]
    rfl
  | _ => exact Or.inr (Or.inr (Or.inl ⟨rfl, rfl⟩))

/-- The process marks a decision it has sent, and only then. -/
theorem critical_resume {S : Sender} {s : Stores} {pc : Pc} {d : Nat}
    (h : (pc.resume S s).critical = some d) :
    pc.writes = some d ∨ pc.removes = some d := by
  have hnext : ∀ k : Cont, k.next.critical = none := by
    intro k
    rcases k.next_cases with h | ⟨row, rows, -, h⟩ | ⟨rec, rest, h⟩ |
        ⟨dustId, rec, rest, h⟩ <;>
      rw [h] <;> rfl
  cases pc.resume_cases S s with
  | remove decisionId values k hpc hk =>
    rw [hk] at h
    rw [hpc]
    exact Or.inl h
  | mark decisionId k hpc hk =>
    rw [hk] at h
    rw [hpc]
    exact Or.inr h
  | next k hk =>
    rw [hk, hnext] at h
    contradiction
  | down hk => rw [hk] at h; contradiction
  | idle hk => rw [hk] at h; contradiction
  | skip why rec rest hk => rw [hk] at h; contradiction
  | add dustId dust rec rest hpc hfound hk => rw [hk] at h; contradiction
  | write rec values rest hpc hk => rw [hk] at h; contradiction

end Pc

/-- A tick handles no decision twice. -/
theorem nodup_fetchPending (db : DecisionDb) (limit : Nat) :
    ((fetchPending db limit).map Decision.id).Nodup := by
  have hids : (fetchPending db limit).map Decision.id =
      ((orderBy decidedKey (db.decisionRecord.rows.filter toSend)).take
        limit).map DecisionRecord.id := by
    rw [fetchPending, List.map_map]
    rfl
  have hfilter := db.decisionRecord.nodup.sublist
    ((List.filter_sublist (p := toSend)).map DecisionRecord.id)
  have hperm := (perm_orderBy decidedKey
    (db.decisionRecord.rows.filter toSend)).map DecisionRecord.id
  rw [hids]
  exact (hperm.nodup_iff.mpr hfilter).sublist
    ((List.take_sublist limit _).map DecisionRecord.id)

/-- A tick handles records that are decided and not sent. -/
theorem mem_fetchPending {db : DecisionDb} {limit : Nat} {rec : Decision}
    (h : rec ∈ fetchPending db limit) :
    db.decisionOf rec.id = some rec.finalDecision ∧
      rec.finalDecision ≠ .pending ∧ db.isSent rec.id = false := by
  obtain ⟨r, hr, rfl⟩ := List.mem_map.mp h
  have hr := mem_orderBy.mp (List.mem_of_mem_take hr)
  obtain ⟨hmem, hp⟩ := List.mem_filter.mp hr
  have hrecord := DecisionDb.record_of_mem hmem
  simp only [toSend, Bool.and_eq_true, bne_iff_ne, ne_eq] at hp
  refine ⟨?_, hp.1, ?_⟩
  · rw [DecisionDb.decisionOf, hrecord]
    rfl
  · rw [DecisionDb.isSent, hrecord]
    simpa using hp.2

end DustMonitoring.Egress
