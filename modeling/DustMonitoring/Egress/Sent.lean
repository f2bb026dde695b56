import DustMonitoring.Egress.Duplicates

/-!
# Sent decisions were written

`send_record` marks a decision as sent without writing it when its
measurement is gone.  It does not look at the outbox there, so a decision
whose write failed, and which is kept in the outbox for that, is marked as
sent as soon as the retention has deleted its measurement.

* `sentIsWritten_of_keepsSource`: in a run in which no shortcut does this
  to a decision of the outbox, a decision that was ever in the outbox is
  marked as sent only after `sink.write` returned success for it.
* `sentIsWritten_iff`: in a run that ends between two ticks the condition
  is exact, because a decision that a shortcut has lost stays in the
  outbox until the loop at hand has ended.
-/

namespace DustMonitoring.Egress

open DustMonitoring.Lib DustMonitoring.Schema

/-! ## The property and its condition -/

/-- The process is between two ticks, or down. -/
def Pc.betweenTicks : Pc → Bool
  | .idle | .down => true
  | _ => false

/-- A decision that the outbox ever held is marked as sent only if it was
written, and between two ticks it is not both marked and in the outbox. -/
def SentIsWritten (d : Nat) (t : World × History) : Prop :=
  (t.2.stored = true → t.1.stores.db.isSent d = true → t.2.acked = true) ∧
    (t.1.pc.betweenTicks = true →
      ¬ (t.1.stores.db.isSent d = true ∧ t.1.stores.Outboxed d))

/-- The decision that the event marks as sent because its measurement is
gone. -/
def lostSource (w : World) (e : Event) : Option Nat :=
  match w.pc with
  | .skip .dustNotFound _ _ => e.marks w
  | _ => none

/-- The measurement of a decision is not missed while the outbox holds the
decision. -/
def KeepsSource (w : World) (e : Event) : Prop :=
  ∀ d ∈ lostSource w e, ¬ w.stores.Outboxed d

instance (w : World) (e : Event) : Decidable (KeepsSource w e) :=
  inferInstanceAs (Decidable (∀ d ∈ lostSource w e, ¬ w.stores.Outboxed d))

variable {S : Sender} {d : Nat}

/-! ## What a step does for the outbox -/

/-- The outbox keeps a decision until it is removed after its write. -/
theorem outboxed_step_of_not_critical {w : World} (e : Event)
    (h : w.stores.Outboxed d) (hc : w.pc.critical ≠ some d) :
    (step S w e).stores.Outboxed d := by
  have heffect : ∀ now, (w.pc.effect S now w.stores).Outboxed d := by
    intro now
    refine (Pc.outboxed_effect S now w.stores d w.pc).mpr (Or.inl ⟨h, ?_⟩)
    intro hr
    cases hpc : w.pc with
    | remove decisionId k =>
      rw [hpc] at hr hc
      exact hc hr
    | _ => rw [hpc] at hr; contradiction
  cases step_cases (S := S) w e with
  | others _ outbox =>
    rw [Stores.Outboxed, outbox]
    exact h
  | quiet _ _ stores => rw [stores]; exact h
  | fault pe now _ stores =>
    rw [stores]
    split
    · exact heffect now
    · exact h
  | reply now _ stores => rw [stores]; exact heffect now

/-- The process comes to mark a sent decision after the sink returned
success for it. -/
theorem acks_of_critical_step {w : World} {e : Event}
    (h : (step S w e).pc.critical = some d) :
    e.acks w = some d ∨ w.pc.critical = some d := by
  cases step_cases (S := S) w e with
  | others pc => exact Or.inr (pc ▸ h)
  | quiet pc => rw [pc.critical] at h; contradiction
  | fault _ _ pc => rw [pc.critical] at h; contradiction
  | reply now pc _ _ acks =>
    rw [pc] at h
    rcases Pc.critical_resume h with hw | hr
    · exact Or.inl (acks.trans hw)
    · cases hpc : w.pc with
      | remove decisionId k =>
        rw [hpc] at hr
        exact Or.inr hr
      | _ => rw [hpc] at hr; contradiction

/-- The event filter passes over no decision of the outbox. -/
theorem not_outboxed_of_skippedEventId {w : World} (hw : w.Faithful S)
    {rec : Decision} {rest : List Decision}
    (hpc : w.pc = .skip .skippedEventId rec rest) :
    ¬ w.stores.Outboxed rec.id := by
  intro hout
  obtain ⟨row, hrow, hid⟩ := hout
  obtain ⟨hcode, hallowed⟩ := hw.stores.outbox row hrow
  have hcarries := hw.pc
  rw [hpc] at hcarries
  have hrec := hcarries.1 rec List.mem_cons_self
  rw [hid] at hcode
  rw [hcode.unique hrec, hcarries.2 rfl] at hallowed
  contradiction

/-! ## The invariant -/

/-- What holds of a decision and its history as long as no shortcut loses
an outboxed decision. -/
structure Accounted (d : Nat) (w : World) (h : History) : Prop where
  finished : w.stores.db.isSent d = true → Finished d w
  critical : w.pc.critical = some d → h.acked = true
  acked : h.stored = true → w.stores.db.isSent d = true → h.acked = true
  kept : h.stored = true → h.acked = false → w.stores.Outboxed d

/-- A decision is marked after it was written, or by a shortcut when the
outbox does not hold it. -/
theorem critical_or_not_outboxed {w : World} (hw : w.Orderly S) {e : Event}
    (hk : KeepsSource w e) (hmarks : e.marks w = some d) :
    w.pc.critical = some d ∨ ¬ w.stores.Outboxed d := by
  have hpcmarks := marks_of_event_marks hmarks
  cases hpc : w.pc with
  | skip why rec rest =>
    rw [hpc] at hpcmarks
    obtain rfl := Option.some.inj hpcmarks
    cases why with
    | dustNotFound =>
      refine Or.inr (hk rec.id ?_)
      rw [lostSource, hpc]
      exact hmarks
    | skippedEventId => exact Or.inr (not_outboxed_of_skippedEventId hw.faithful hpc)
  | mark decisionId k =>
    rw [hpc] at hpcmarks
    exact Or.inl hpcmarks
  | _ => rw [hpc] at hpcmarks; contradiction

theorem finished_of_marks_not_outboxed {w : World} (hw : w.Orderly S)
    {e : Event} (hmarks : e.marks w = some d) (hout : ¬ w.stores.Outboxed d) :
    Finished d (step S w e) where
  sent := (isSent_step hw.faithful e).mpr (Or.inr hmarks)
  removed := fun h => by
    rcases outboxed_step h with h | hadds
    · exact hout h
    · have hpcmarks := marks_of_event_marks hmarks
      cases hpc : w.pc <;> simp_all [Pc.adds, Pc.marks]
  handled := not_mem_ids_of_marks hw.nodup hmarks

theorem Accounted.step {w : World} {h : History} (ha : Accounted d w h)
    (hw : w.Orderly S) {e : Event} (hk : KeepsSource w e) :
    Accounted d (Egress.step S w e) (note S d w e h) := by
  have hack : h.acked = true → (note S d w e h).acked = true := by
    intro hacked
    simp [note, hacked]
  have hfinished : (Egress.step S w e).stores.db.isSent d = true →
      Finished d (Egress.step S w e) := by
    intro hsent
    rcases (isSent_step hw.faithful e).mp hsent with hsent | hmarks
    · exact (ha.finished hsent).step hw e
    · rcases critical_or_not_outboxed hw hk hmarks with hc | hout
      · exact finished_of_marks hw hc hmarks
      · exact finished_of_marks_not_outboxed hw hmarks hout
  have hstored : (note S d w e h).stored = true →
      ¬ (Egress.step S w e).stores.Outboxed d → h.stored = true := by
    intro hs hout
    simpa [note, hout] using hs
  refine ⟨hfinished, ?_, ?_, ?_⟩
  · intro hc
    rcases acks_of_critical_step hc with hacks | hc
    · simp [note, hacks]
    · exact hack (ha.critical hc)
  · intro hs hsent
    have hs := hstored hs (hfinished hsent).removed
    rcases (isSent_step hw.faithful e).mp hsent with hsent | hmarks
    · exact hack (ha.acked hs hsent)
    · rcases critical_or_not_outboxed hw hk hmarks with hc | hout
      · exact hack (ha.critical hc)
      · cases hacked : h.acked with
        | true => exact hack hacked
        | false => exact absurd (ha.kept hs hacked) hout
  · intro hs hnot
    by_contra hout
    have hs := hstored hs hout
    have hacked : h.acked = false := by
      cases hb : h.acked with
      | true => rw [hack hb] at hnot; contradiction
      | false => rfl
    refine hout (outboxed_step_of_not_critical e (ha.kept hs hacked) ?_)
    intro hc
    rw [ha.critical hc] at hacked
    contradiction

/-! ## Over a run -/

/-- In every run in which no decision of the outbox is marked as sent for
want of its measurement, a decision that was ever in the outbox is marked
as sent only after it was written, and between two ticks no decision is
both marked as sent and in the outbox. -/
theorem sentIsWritten_of_keepsSource
    (alarmMapping : Table AlarmMapping.id)
    (roleMapping : Table RoleMapping.detectionRole) (d : Nat)
    (es : List Event)
    (h : AllSteps (step S) KeepsSource (World.init alarmMapping roleMapping) es) :
    SentIsWritten d (traced S d (World.init alarmMapping roleMapping) es) := by
  have hstep : ∀ (p : World × History) e,
      (p.1.Orderly S ∧ Accounted d p.1 p.2) → KeepsSource p.1 e →
      (withHistory (step S) (note S d) p e).1.Orderly S ∧
        Accounted d (withHistory (step S) (note S d) p e).1
          (withHistory (step S) (note S d) p e).2 :=
    fun p e hp hk => ⟨hp.1.step e, hp.2.step hp.1 hk⟩
  have hnot : ¬ (World.init alarmMapping roleMapping).stores.db.isSent d = true := by
    intro hsent
    obtain ⟨r, hr, -⟩ := DecisionDb.isSent_iff.mp hsent
    exact absurd (Table.find?_eq_some_iff.mp hr).1 List.not_mem_nil
  have hinit : Accounted d (World.init alarmMapping roleMapping) {} :=
    ⟨fun hsent => absurd hsent hnot, fun hc => by contradiction,
      fun hs => by contradiction, fun hs => by contradiction⟩
  obtain ⟨-, ha⟩ := run_invariant_of_allSteps hstep
    ⟨orderly_init alarmMapping roleMapping, hinit⟩
    (allSteps_withHistory (note S d) (World.init alarmMapping roleMapping, {}) h)
  refine ⟨ha.acked, fun _ hboth => ?_⟩
  exact (ha.finished hboth.1).removed hboth.2

/-! ## The condition is exact -/

/-- The decision is marked as sent, and the outbox holds it, and the loop
at hand does not come to it. -/
structure Stuck (d : Nat) (w : World) : Prop where
  sent : w.stores.db.isSent d = true
  outboxed : w.stores.Outboxed d
  passed : d ∉ w.pc.ids
  started : w.pc ≠ .listOutbox

theorem Cont.next_ne_listOutbox (k : Cont) : k.next ≠ .listOutbox := by
  rcases k.next_cases with h | ⟨row, rows, -, h⟩ | ⟨rec, rest, h⟩ |
      ⟨dustId, rec, rest, h⟩ <;>
    simp [h]

theorem Pc.resume_ne_listOutbox (s : Stores) (pc : Pc) :
    pc.resume S s ≠ .listOutbox := by
  cases pc.resume_cases S s with
  | next k hk =>
    rw [hk]
    exact k.next_ne_listOutbox
  | down hk => simp [hk]
  | idle hk => simp [hk]
  | skip why rec rest hk => simp [hk]
  | add dustId dust rec rest hpc hfound hk => simp [hk]
  | write rec values rest hpc hk => simp [hk]
  | remove decisionId values k hpc hk => simp [hk]
  | mark decisionId k hpc hk => simp [hk]

theorem Pc.raised_ne_listOutbox (pc : Pc) : pc.raised ≠ .listOutbox := by
  have habort : ∀ k : Cont, k.abort ≠ .listOutbox := by
    intro k
    cases k <;> simp [Cont.abort]
  cases pc with
  | bump decisionId k => exact habort k
  | remove decisionId k => exact habort k
  | mark decisionId k => exact habort k
  | _ => simp [Pc.raised]

/-- Only a process that was down lists its outbox. -/
theorem ne_listOutbox_step {w : World} (e : Event) (hd : w.pc ≠ .down)
    (hl : w.pc ≠ .listOutbox) : (step S w e).pc ≠ .listOutbox := by
  cases e with
  | egress pe =>
    cases pe with
    | reply o now =>
      show (processStep S w.pc w.stores (.reply o now)).1 ≠ .listOutbox
      unfold processStep
      dsimp only
      split
      · exact w.pc.resume_ne_listOutbox w.stores
      · exact w.pc.raised_ne_listOutbox
    | crash applied now => simp [step, processStep]
    | boot =>
      cases hpc : w.pc with
      | down => exact absurd hpc hd
      | _ => simp_all [step, processStep]
    | _ => cases hpc : w.pc <;> simp_all [step, processStep]
  | _ => exact hl

theorem Stuck.step {w : World} (h : Stuck d w) (hw : w.Faithful S)
    (hd : w.pc ≠ .down) (e : Event) : Stuck d (Egress.step S w e) where
  sent := (isSent_step hw e).mpr (Or.inl h.sent)
  outboxed := outboxed_step_of_not_critical e h.outboxed
    fun hc => h.passed (mem_ids_of_critical hc)
  passed := fun hids => by
    rcases mem_ids_step hids with hids | ⟨hl, -⟩ | hsent
    · exact h.passed hids
    · exact h.started hl
    · rw [h.sent] at hsent
      contradiction
  started := ne_listOutbox_step e hd h.started

/-- A decision that is stuck is found marked and in the outbox when the
loop at hand has ended. -/
theorem exists_betweenTicks_of_stuck {w : World} (h : Stuck d w)
    (hw : w.Faithful S) (es : List Event)
    (hend : (run (step S) w es).pc.betweenTicks = true) :
    ∃ pre post, es = pre ++ post ∧
      (run (step S) w pre).pc.betweenTicks = true ∧
      (run (step S) w pre).stores.db.isSent d = true ∧
      (run (step S) w pre).stores.Outboxed d := by
  induction es generalizing w with
  | nil => exact ⟨[], [], rfl, hend, h.sent, h.outboxed⟩
  | cons e es ih =>
    by_cases hb : w.pc.betweenTicks = true
    · exact ⟨[], e :: es, rfl, hb, h.sent, h.outboxed⟩
    · have hd : w.pc ≠ .down := by
        intro hpc
        rw [hpc] at hb
        exact hb rfl
      obtain ⟨pre, post, rfl, hpre⟩ := ih (h.step hw hd e) (hw.step e) hend
      exact ⟨e :: pre, post, rfl, hpre⟩

/-- A step that does not meet the condition leaves a decision stuck. -/
theorem exists_stuck_of_not_keepsSource {w : World} (hw : w.Orderly S)
    {e : Event} (h : ¬ KeepsSource w e) : ∃ d, Stuck d (step S w e) := by
  unfold KeepsSource at h
  push Not at h
  obtain ⟨d, hd, hout⟩ := h
  obtain ⟨rec, rest, hpc, hmarks⟩ : ∃ rec rest,
      w.pc = .skip .dustNotFound rec rest ∧ e.marks w = some d := by
    unfold lostSource at hd
    split at hd
    · next rec rest hpc => exact ⟨rec, rest, hpc, hd⟩
    · contradiction
  refine ⟨d, (isSent_step hw.faithful e).mpr (Or.inr hmarks), ?_, ?_, ?_⟩
  · refine outboxed_step_of_not_critical e hout fun hc => ?_
    rw [hpc] at hc
    contradiction
  · exact not_mem_ids_of_marks hw.nodup hmarks
  · apply ne_listOutbox_step
    · rw [hpc]
      simp
    · rw [hpc]
      simp

/-- If no step of a run marks a decision of the outbox as sent for want of
its measurement, then in every state of the run sent decisions were
written.  A run that ends between two ticks and has such a step has a state
in which this fails. -/
theorem sentIsWritten_iff (S : Sender) (alarmMapping : Table AlarmMapping.id)
    (roleMapping : Table RoleMapping.detectionRole) (es : List Event) :
    (AllSteps (step S) KeepsSource (World.init alarmMapping roleMapping) es →
        ∀ d pre post, es = pre ++ post →
          SentIsWritten d
            (traced S d (World.init alarmMapping roleMapping) pre)) ∧
      ((run (step S) (World.init alarmMapping roleMapping)
          es).pc.betweenTicks = true →
        (∀ d pre post, es = pre ++ post →
          SentIsWritten d
            (traced S d (World.init alarmMapping roleMapping) pre)) →
        AllSteps (step S) KeepsSource (World.init alarmMapping roleMapping) es) := by
  constructor
  · intro h d pre post hes
    rw [hes] at h
    exact sentIsWritten_of_keepsSource alarmMapping roleMapping d pre
      (allSteps_append.mp h).1
  · intro hend h
    rw [allSteps_iff]
    intro pre e post hes
    by_contra hk
    have hw := orderly_run (S := S) (orderly_init alarmMapping roleMapping) pre
    obtain ⟨d, hstuck⟩ := exists_stuck_of_not_keepsSource hw hk
    rw [hes, run_append, run_cons] at hend
    obtain ⟨mid, rest, rfl, hb, hsent, hout⟩ :=
      exists_betweenTicks_of_stuck hstuck (hw.faithful.step e) post hend
    have hmid := h d (pre ++ e :: mid) rest (by rw [hes]; simp)
    rw [SentIsWritten, fst_traced, run_append, run_cons] at hmid
    exact hmid.2 hb ⟨hsent, hout⟩

/-! ## A measurement that is purged too early -/

def plainSender : Sender where
  strFloat := fun _ => ""
  strDatetime := fun _ => ""

/-- One record is decided, and its first write fails. -/
def failedSend : List Event :=
  [.insertDust { id := 0, receivedAt := 0 },
    .insertRecord
      { id := 0, stationId := "amr-01", observationTimestamp := 0
        dustId := some 1 },
    .agent 0 (.forceDecide 1 .caution none .ok 5),
    .egress .boot, .egress (.reply .ok 6),
    .egress .poll, .egress (.reply .ok 7), .egress (.reply .ok 8),
    .egress (.reply .ok 9), .egress (.reply (.failed "LOAS is down") 10),
    .egress (.reply .ok 11)]

/-- The next tick looks the measurement up, and handles the one record. -/
def nextTick (operations : Nat) : List Event :=
  .egress .poll :: List.replicate operations (.egress (.reply .ok 20))

theorem sentIsWritten_failedSend :
    SentIsWritten 1 (traced plainSender 1 (World.init Table.empty Table.empty)
      (failedSend ++ nextTick 6)) :=
  (sentIsWritten_iff plainSender Table.empty Table.empty
    (failedSend ++ nextTick 6)).1 (by decide +kernel) 1 _ []
      (List.append_nil _).symm

/-- The retention deletes the measurement before the next tick, which then
marks the record as sent. -/
theorem not_sentIsWritten_purged :
    ¬ SentIsWritten 1 (traced plainSender 1 (World.init Table.empty Table.empty)
      (failedSend ++ .deleteDusts (fun _ => true) :: nextTick 3)) := by
  intro h
  exact absurd (h.1 (by decide +kernel) (by decide +kernel)) (by decide +kernel)

end DustMonitoring.Egress
