import DustMonitoring.Schema.Decision

/-!
# Records of decision_db by their id

What a statement on `decision_record` did is read off `DecisionDb.record`,
the row under an id.  Four parties write the table: the producer inserts,
the channels report their results, the decision agent decides, and the
egress gateway marks rows as sent.  `Keeps` is what all of them but the
last do to a record that is there.
-/

namespace DustMonitoring.Schema

open DustMonitoring.Lib

namespace DecisionDb

/-- The record under the id. -/
def record (db : DecisionDb) (id : Nat) : Option DecisionRecord :=
  db.decisionRecord.find? id

/-- The verdict of the record under the id. -/
def decisionOf (db : DecisionDb) (id : Nat) : Option DecisionResult :=
  (db.record id).map DecisionRecord.finalDecision

/-- The record under the id is marked as sent. -/
def isSent (db : DecisionDb) (id : Nat) : Bool :=
  (db.record id).any fun r => r.sentAt.isSome

/-- An `UPDATE decision_record`. -/
def updateRecords (db : DecisionDb) (p : DecisionRecord → Bool)
    (f : DecisionRecord → DecisionRecord) (hf : ∀ r, (f r).id = r.id) :
    DecisionDb :=
  { db with
    decisionRecord := db.decisionRecord.updateWhere p f hf }

theorem record_updateRecords (db : DecisionDb) (p : DecisionRecord → Bool)
    (f : DecisionRecord → DecisionRecord) (hf : ∀ r, (f r).id = r.id)
    (id : Nat) :
    (db.updateRecords p f hf).record id =
      (db.record id).map fun r => if p r then f r else r :=
  db.decisionRecord.find?_updateWhere p f hf id

theorem id_of_record {db : DecisionDb} {id : Nat} {r : DecisionRecord}
    (h : db.record id = some r) : r.id = id :=
  (Table.find?_eq_some_iff.mp h).2

theorem record_of_mem {db : DecisionDb} {r : DecisionRecord}
    (h : r ∈ db.decisionRecord.rows) : db.record r.id = some r :=
  Table.find?_eq_some_iff.mpr ⟨h, rfl⟩

theorem isSent_iff {db : DecisionDb} {id : Nat} :
    db.isSent id = true ↔ ∃ r, db.record id = some r ∧ r.sentAt.isSome := by
  unfold isSent
  cases db.record id <;> simp

/-! ## Writers that leave verdicts alone -/

/-- What the writers other than the egress gateway do to a record: it
stays, a verdict stays, and nothing is marked as sent. -/
structure Keeps (db db' : DecisionDb) : Prop where
  decided : ∀ id x, db.decisionOf id = some x → x ≠ .pending →
    db'.decisionOf id = some x
  sent : ∀ id, db'.isSent id = db.isSent id

theorem Keeps.refl (db : DecisionDb) : Keeps db db :=
  ⟨fun _ _ h _ => h, fun _ => rfl⟩

theorem keeps_of_record_eq {db db' : DecisionDb}
    (h : ∀ id, db'.record id = db.record id) : Keeps db db' where
  decided := fun id x hx _ => by
    rw [decisionOf, h id]
    exact hx
  sent := fun id => by rw [isSent, isSent, h id]

/-- An update that does not touch `sent_at`, nor the verdict of a decided
record. -/
theorem keeps_updateRecords (db : DecisionDb) {p : DecisionRecord → Bool}
    {f : DecisionRecord → DecisionRecord} {hf : ∀ r, (f r).id = r.id}
    (hsent : ∀ r, (f r).sentAt = r.sentAt)
    (hfinal : ∀ r, p r = true → r.finalDecision ≠ .pending →
      (f r).finalDecision = r.finalDecision) :
    Keeps db (db.updateRecords p f hf) where
  decided := fun id x hx hne => by
    unfold decisionOf at hx ⊢
    rw [record_updateRecords]
    obtain ⟨r, hr, rfl⟩ := Option.map_eq_some_iff.mp hx
    rw [hr, Option.map_some, Option.map_some]
    split
    · next hp => rw [hfinal r hp hne]
    · rfl
  sent := fun id => by
    unfold isSent
    rw [record_updateRecords]
    cases db.record id with
    | none => rfl
    | some r =>
      show Option.isSome (ite _ _ _ : DecisionRecord).sentAt = _
      split
      · rw [hsent r]
        rfl
      · rfl

/-- An appended record is found under its new id. -/
theorem record_append (db : DecisionDb) (row : DecisionRecord) (id : Nat) :
    DecisionDb.record
        { db with
          decisionRecord := db.decisionRecord.append
            (fun n => { row with id := n }) fun _ => rfl } id =
      if id = db.decisionRecord.next then
        some { row with id := db.decisionRecord.next }
      else db.record id :=
  db.decisionRecord.find?_append (fun n => { row with id := n })
    (fun _ => rfl) id

/-- The producer adds a record that is not sent. -/
theorem keeps_insertDecision (db : DecisionDb) {row : DecisionRecord}
    (hsent : row.sentAt = none) : Keeps db (db.insertDecision row).1 := by
  have hnone : db.record db.decisionRecord.next = none :=
    db.decisionRecord.find?_next
  unfold insertDecision
  split
  · exact .refl db
  · constructor
    · intro id x hx _
      have hne : id ≠ db.decisionRecord.next := by
        intro heq
        rw [decisionOf, heq, hnone] at hx
        contradiction
      rw [decisionOf, record_append, if_neg hne]
      exact hx
    · intro id
      rw [isSent, isSent, record_append]
      split
      · next heq =>
        rw [heq, hnone]
        simp [hsent]
      · rfl

end DecisionDb

end DustMonitoring.Schema
