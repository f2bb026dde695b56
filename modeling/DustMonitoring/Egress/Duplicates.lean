import DustMonitoring.Egress.History

/-!
# Rows per decision

A commit of a row is followed by the removal from the outbox and the mark
in decision_db.  Each time a fault cuts this off the decision may be sent
again, and otherwise it is `Finished`: marked, out of the outbox, and not
in the loop at hand.

* `committed_le_faults`: LOAS has at most one row more for a decision than
  there were faults between a commit of one of its rows and the next
  `mark_sent` of it.
-/

namespace DustMonitoring.Egress

open DustMonitoring.Lib DustMonitoring.Schema

variable {S : Sender} {d : Nat}

/-! ## Commits -/

/-- A commit is the write of the decision.  After it the process goes on
to mark the decision, or there was a fault. -/
theorem committed_step (S : Sender) (d : Nat) (w : World) (e : Event) :
    (step S w e).stores.committed d = w.stores.committed d ∨
      ((step S w e).stores.committed d = w.stores.committed d + 1 ∧
        w.pc.writes = some d ∧
        (e.isFault w = true ∨ (step S w e).pc.critical = some d)) := by
  have heffect : ∀ now,
      (w.pc.effect S now w.stores).committed d = w.stores.committed d ∨
      ((w.pc.effect S now w.stores).committed d = w.stores.committed d + 1 ∧
        w.pc.writes = some d) := by
    intro now
    rw [Pc.committed_effect]
    by_cases hw : w.pc.writes = some d
    · exact Or.inr ⟨by rw [if_pos hw], hw⟩
    · exact Or.inl (by rw [if_neg hw, Nat.add_zero])
  cases step_cases (S := S) w e with
  | others _ _ loas => exact Or.inl (by rw [Stores.committed, loas]; rfl)
  | quiet _ _ stores => exact Or.inl (by rw [stores])
  | fault pe now _ stores _ _ fault =>
    rw [stores]
    split
    · exact (heffect now).imp_right fun h => ⟨h.1, h.2, Or.inl fault⟩
    · exact Or.inl rfl
  | reply now pc stores =>
    rw [stores]
    refine (heffect now).imp_right fun h => ⟨h.1, h.2, Or.inr ?_⟩
    rw [pc]
    cases hpc : w.pc with
    | write decisionId values k =>
      rw [hpc] at h
      exact h.2
    | _ => rw [hpc] at h; exact absurd h.2 (by simp [Pc.writes])

theorem committed_mono (S : Sender) (d : Nat) (w : World) (e : Event) :
    w.stores.committed d ≤ (step S w e).stores.committed d := by
  rcases committed_step S d w e with h | ⟨h, -⟩
  · exact le_of_eq h.symm
  · omega

theorem critical_eq_none_of_writes {pc : Pc} (h : pc.writes = some d) :
    pc.critical = none := by
  cases pc <;> first | rfl | contradiction

/-- The process comes to mark a sent decision by committing a row, or by
removing it from the outbox. -/
theorem critical_of_step {w : World} {e : Event}
    (h : (step S w e).pc.critical = some d) :
    (step S w e).stores.committed d = w.stores.committed d + 1 ∨
      (w.pc.critical = some d ∧ e.marks w ≠ some d) := by
  cases step_cases (S := S) w e with
  | others pc _ _ _ marks =>
    rw [pc] at h
    exact Or.inr ⟨h, by rw [marks]; simp⟩
  | quiet pc => rw [pc.critical] at h; contradiction
  | fault _ _ pc => rw [pc.critical] at h; contradiction
  | reply now pc stores marks =>
    rw [pc] at h
    rcases Pc.critical_resume h with hw | hr
    · rw [stores, Pc.committed_effect, if_pos hw]
      exact Or.inl rfl
    · rw [marks]
      cases hpc : w.pc with
      | remove decisionId k =>
        rw [hpc] at hr
        exact Or.inr ⟨hr, by simp [Pc.marks]⟩
      | _ => rw [hpc] at hr; contradiction

/-- The process leaves a sent decision by a fault, or by marking it. -/
theorem fault_or_marks_of_critical {w : World} {e : Event}
    (h : w.pc.critical = some d) (h' : (step S w e).pc.critical ≠ some d) :
    e.isFault w = true ∨ e.marks w = some d := by
  cases step_cases (S := S) w e with
  | others pc => exact absurd (pc ▸ h) h'
  | quiet _ critical => rw [critical] at h; contradiction
  | fault _ _ _ _ _ _ fault => exact Or.inl fault
  | reply now pc stores marks =>
    rw [marks]
    cases hpc : w.pc with
    | remove decisionId k =>
      rw [pc, hpc] at h'
      rw [hpc] at h
      exact absurd h h'
    | mark decisionId k =>
      rw [hpc] at h
      exact Or.inr h
    | _ => rw [hpc] at h; contradiction

/-! ## Finished decisions -/

/-- The decision is marked as sent, out of the outbox, and out of the loop
at hand. -/
structure Finished (d : Nat) (w : World) : Prop where
  sent : w.stores.db.isSent d = true
  removed : ¬ w.stores.Outboxed d
  handled : d ∉ w.pc.ids

theorem Finished.step {w : World} (h : Finished d w) (hw : w.Orderly S)
    (e : Event) : Finished d (Egress.step S w e) where
  sent := (isSent_step hw.faithful e).mpr (Or.inl h.sent)
  removed := fun hout => (outboxed_step hout).elim h.removed
    fun hadds => h.handled (mem_ids_of_adds hadds)
  handled := fun hids => by
    rcases mem_ids_step hids with hids | ⟨-, hout⟩ | hsent
    · exact h.handled hids
    · exact h.removed hout
    · rw [h.sent] at hsent
      contradiction

/-- Marking a decision that was sent finishes it. -/
theorem finished_of_marks {w : World} {e : Event} (hw : w.Orderly S)
    (h : w.pc.critical = some d) (hmarks : e.marks w = some d) :
    Finished d (step S w e) where
  sent := (isSent_step hw.faithful e).mpr (Or.inr hmarks)
  removed := fun hout => by
    have hpc := marks_of_event_marks hmarks
    cases hcase : w.pc with
    | mark decisionId k =>
      rw [hcase] at h
      obtain rfl := Option.some.inj h
      rcases outboxed_step hout with hout | hadds
      · exact hw.removed _ k hcase hout
      · rw [hcase] at hadds
        contradiction
    | remove decisionId k =>
      rw [hcase] at hpc
      contradiction
    | _ => rw [hcase] at h; contradiction
  handled := not_mem_ids_of_marks hw.nodup hmarks

/-! ## The bound -/

/-- Every row of the decision but the last was followed by a fault before
its mark, and so was the last one unless the process is about to mark it
or has finished with it. -/
structure Bounded (d : Nat) (w : World) (h : History) : Prop where
  critical : w.pc.critical = some d →
    h.unmarked = true ∧ 1 ≤ w.stores.committed d
  bound : w.stores.committed d ≤ h.faults ∨
    (w.stores.committed d ≤ h.faults + 1 ∧
      (w.pc.critical = some d ∨ Finished d w))
  sent : w.stores.db.isSent d = true →
    h.skipped = true ∨ 1 ≤ w.stores.committed d

theorem faults_le_note (w : World) (e : Event) (h : History) :
    h.faults ≤ (note S d w e h).faults := Nat.le_add_right _ _

theorem unmarked_note_of_commit {w : World} {e : Event} (h : History)
    (hc : (step S w e).stores.committed d = w.stores.committed d + 1) :
    (note S d w e h).unmarked = true :=
  if_pos (by omega)

theorem unmarked_note_of_not_marks {w : World} {e : Event} {h : History}
    (hmarks : e.marks w ≠ some d) (hu : h.unmarked = true) :
    (note S d w e h).unmarked = true := by
  show (if _ then _ else _) = true
  rw [if_neg hmarks, hu, ite_self]

theorem faults_note_of_fault {w : World} {e : Event} {h : History}
    (hu : (note S d w e h).unmarked = true) (hf : e.isFault w = true) :
    (note S d w e h).faults = h.faults + 1 := by
  show h.faults + (if ((note S d w e h).unmarked && e.isFault w) = true
    then 1 else 0) = _
  rw [hu, hf]
  rfl

theorem Bounded.critical_step {w : World} {h : History} (hb : Bounded d w h)
    (e : Event) (hc : (step S w e).pc.critical = some d) :
    (note S d w e h).unmarked = true ∧
      1 ≤ (step S w e).stores.committed d := by
  have hmono := committed_mono S d w e
  rcases critical_of_step hc with hcommit | ⟨hcritical, hmarks⟩
  · exact ⟨unmarked_note_of_commit h hcommit, by omega⟩
  · obtain ⟨hu, hpos⟩ := hb.critical hcritical
    exact ⟨unmarked_note_of_not_marks hmarks hu, by omega⟩

theorem Bounded.bound_step {w : World} {h : History} (hb : Bounded d w h)
    (hw : w.Orderly S) (e : Event) :
    (step S w e).stores.committed d ≤ (note S d w e h).faults ∨
      ((step S w e).stores.committed d ≤ (note S d w e h).faults + 1 ∧
        ((step S w e).pc.critical = some d ∨ Finished d (step S w e))) := by
  have hfaults := faults_le_note (S := S) (d := d) w e h
  rcases committed_step S d w e with hsame | ⟨hcommit, hwrites, hnext⟩
  · rcases hb.bound with hle | ⟨hle, hcritical | hfinished⟩
    · exact Or.inl (by omega)
    · by_cases hc : (step S w e).pc.critical = some d
      · exact Or.inr ⟨by omega, Or.inl hc⟩
      · by_cases hmarks : e.marks w = some d
        · exact Or.inr ⟨by omega, Or.inr (finished_of_marks hw hcritical hmarks)⟩
        · have hf := (fault_or_marks_of_critical hcritical hc).resolve_right hmarks
          have hu := unmarked_note_of_not_marks (S := S) hmarks
            (hb.critical hcritical).1
          have hcount := faults_note_of_fault hu hf
          exact Or.inl (by omega)
    · exact Or.inr ⟨by omega, Or.inr (hfinished.step hw e)⟩
  · have hle : w.stores.committed d ≤ h.faults := by
      rcases hb.bound with hle | ⟨-, hcritical | hfinished⟩
      · exact hle
      · rw [critical_eq_none_of_writes hwrites] at hcritical
        contradiction
      · exact absurd (mem_ids_of_writes hwrites) hfinished.handled
    rcases hnext with hf | hc
    · have hcount := faults_note_of_fault (unmarked_note_of_commit h hcommit) hf
      exact Or.inl (by omega)
    · exact Or.inr ⟨by omega, Or.inl hc⟩

theorem Bounded.sent_step {w : World} {h : History} (hb : Bounded d w h)
    (hw : w.Orderly S) (e : Event)
    (hsent : (step S w e).stores.db.isSent d = true) :
    (note S d w e h).skipped = true ∨
      1 ≤ (step S w e).stores.committed d := by
  have hmono := committed_mono S d w e
  cases hbefore : w.stores.db.isSent d with
  | true =>
    rcases hb.sent hbefore with hs | hpos
    · exact Or.inl (by simp [note, hs])
    · exact Or.inr (by omega)
  | false =>
    have hmarks : e.marks w = some d := by
      rcases (isSent_step hw.faithful e).mp hsent with h' | h'
      · rw [hbefore] at h'
        contradiction
      · exact h'
    have hpcmarks := marks_of_event_marks hmarks
    cases hpc : w.pc with
    | skip why rec rest =>
      exact Or.inl (by simp [note, skips, hpc, hmarks, hbefore])
    | mark decisionId k =>
      have hcritical : w.pc.critical = some d := by
        rw [hpc] at hpcmarks ⊢
        exact hpcmarks
      have := (hb.critical hcritical).2
      exact Or.inr (by omega)
    | _ => rw [hpc] at hpcmarks; contradiction

/-- The invariant of the duplicate bound, of the world and the history. -/
def BoundInv (S : Sender) (d : Nat) (p : World × History) : Prop :=
  p.1.Orderly S ∧ Bounded d p.1 p.2

theorem boundInv_step (p : World × History) (e : Event)
    (h : BoundInv S d p) : BoundInv S d (withHistory (step S) (note S d) p e) := by
  obtain ⟨hw, hb⟩ := h
  exact ⟨hw.step e, hb.critical_step e, hb.bound_step hw e, hb.sent_step hw e⟩

theorem boundInv_traced (alarmMapping : Table AlarmMapping.id)
    (roleMapping : Table RoleMapping.detectionRole) (es : List Event) :
    BoundInv S d (traced S d (World.init alarmMapping roleMapping) es) := by
  refine run_invariant boundInv_step ⟨orderly_init alarmMapping roleMapping, ?_⟩ es
  refine ⟨fun h => by contradiction, Or.inl (Nat.zero_le _), fun h => ?_⟩
  obtain ⟨r, hr, -⟩ := DecisionDb.isSent_iff.mp h
  exact absurd (Table.find?_eq_some_iff.mp hr).1 List.not_mem_nil

/-- Without a fault no fault is counted. -/
theorem faults_eq_zero {w : World} {es : List Event}
    (h : AllSteps (step S) (fun w e => e.isFault w = false) w es) :
    (traced S d w es).2.faults = 0 := by
  have hstep : ∀ (p : World × History) e, p.2.faults = 0 →
      e.isFault p.1 = false →
      (withHistory (step S) (note S d) p e).2.faults = 0 := by
    intro p e hzero hfault
    show p.2.faults + (if (_ && e.isFault p.1) = true then 1 else 0) = 0
    rw [hfault, hzero, Bool.and_false]
    rfl
  have hall : AllSteps (withHistory (step S) (note S d))
      (fun p e => e.isFault p.1 = false) (w, {}) es :=
    allSteps_withHistory (note S d) (w, {}) h
  exact run_invariant_of_allSteps hstep rfl hall

/-- Over every run, at any of its states: a decision has at most one row
more than there were faults between a commit of one of its rows and the
next `mark_sent` of it, at most one row in a run without faults, and at
least one row if it is marked as sent and no shortcut marked it. -/
theorem committed_le_faults (S : Sender) (alarmMapping : Table AlarmMapping.id)
    (roleMapping : Table RoleMapping.detectionRole) (d : Nat)
    (es : List Event) :
    let t := traced S d (World.init alarmMapping roleMapping) es
    t.1.stores.committed d ≤ 1 + t.2.faults ∧
      (AllSteps (step S) (fun w e => e.isFault w = false)
          (World.init alarmMapping roleMapping) es →
        t.1.stores.committed d ≤ 1) ∧
      (t.1.stores.db.isSent d = true → t.2.skipped = false →
        1 ≤ t.1.stores.committed d) := by
  intro t
  obtain ⟨-, hb⟩ := boundInv_traced (S := S) (d := d) alarmMapping roleMapping es
  have hle : t.1.stores.committed d ≤ t.2.faults + 1 := by
    rcases hb.bound with hle | ⟨hle, -⟩
    · exact Nat.le_succ_of_le hle
    · exact hle
  refine ⟨by omega, fun hall => ?_, fun hsent hskip => ?_⟩
  · have hzero : t.2.faults = 0 := faults_eq_zero hall
    omega
  · rcases hb.sent hsent with hs | hpos
    · rw [hskip] at hs
      contradiction
    · exact hpos

end DustMonitoring.Egress
