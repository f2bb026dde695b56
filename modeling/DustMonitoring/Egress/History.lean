import DustMonitoring.Egress.DecideOnce

/-!
# The history of one decision

`History` is what a run has done so far for one decision `d`, kept beside
the world: whether the outbox ever held it, whether `sink.write` returned
success for it, whether a shortcut marked it as sent, and the faults that
fell between a commit of one of its rows and the next `mark_sent` of it.

`pending_step` is the invariant that the bounds share: the process handles
no decision twice in one loop, and when it marks a decision that it sent,
the outbox does not hold it any more.
-/

namespace DustMonitoring.Egress

open DustMonitoring.Lib DustMonitoring.Schema

/-- What a run has done so far for one decision. -/
structure History where
  /-- The outbox has held the decision. -/
  stored : Bool := false
  /-- `sink.write` has returned success for it. -/
  acked : Bool := false
  /-- A shortcut has marked it as sent. -/
  skipped : Bool := false
  /-- A row was committed for it, and no `mark_sent` of it has completed
  since. -/
  unmarked : Bool := false
  /-- The faults so far while it was `unmarked`. -/
  faults : Nat := 0

variable (S : Sender) (d : Nat)

/-- The event marks the decision as sent by a shortcut. -/
def skips (w : World) (e : Event) : Bool :=
  match w.pc with
  | .skip _ _ _ => decide (e.marks w = some d) && !w.stores.db.isSent d
  | _ => false

/-- The history after the event.  A fault counts when the decision is
`unmarked` after what the event did to the stores. -/
def note (w : World) (e : Event) (h : History) : History :=
  let w' := step S w e
  let unmarked :=
    if w.stores.committed d < w'.stores.committed d then true
    else if e.marks w = some d then false
    else h.unmarked
  { stored := h.stored || decide (w'.stores.Outboxed d)
    acked := h.acked || decide (e.acks w = some d)
    skipped := h.skipped || skips d w e
    unmarked := unmarked
    faults := h.faults + if unmarked && e.isFault w then 1 else 0 }

/-- The run of the world with the history of the decision. -/
def traced (w : World) (es : List Event) : World × History :=
  run (withHistory (step S) (note S d)) (w, {}) es

@[simp] theorem fst_traced (w : World) (es : List Event) :
    (traced S d w es).1 = run (step S) w es :=
  fst_run_withHistory (step S) (note S d) (w, {}) es

/-! ## The loop at hand -/

variable {S d}

/-- The process handles no decision twice in one loop, and a decision that
it is about to mark after sending it is out of the outbox. -/
structure World.Orderly (S : Sender) (w : World) : Prop where
  faithful : w.Faithful S
  nodup : w.pc.ids.Nodup
  removed : ∀ d k, w.pc = .mark d k → ¬ w.stores.Outboxed d

theorem not_outboxed_of_resume_mark {s : Stores} {pc : Pc} {now : Timestamp}
    {k : Cont} (h : pc.resume S s = .mark d k) :
    ¬ (pc.effect S now s).Outboxed d := by
  have hcritical : (pc.resume S s).critical = some d := by
    rw [h]
    rfl
  intro hout
  rcases Pc.critical_resume hcritical with hw | hr
  · cases pc with
    | write decisionId values k' => simp [Pc.resume] at h
    | _ => contradiction
  · rcases (Pc.outboxed_effect S now s d pc).mp hout with ⟨-, hne⟩ | hadds
    · exact hne hr
    · cases pc <;> contradiction

theorem nodup_ids_resume {s : Stores} {pc : Pc} (h : pc.ids.Nodup) :
    (pc.resume S s).ids.Nodup := by
  rcases pc.ids_resume S s with ⟨-, hids⟩ | ⟨-, hids⟩ | ⟨hids, -⟩ | ⟨d, hids, -⟩
  · rw [hids]
    exact s.outbox.nodup
  · rw [hids]
    exact nodup_fetchPending s.db S.batchSize
  · rw [hids]
    exact h
  · rw [hids] at h
    exact (List.nodup_cons.mp h).2

theorem orderly_init (alarmMapping : Table AlarmMapping.id)
    (roleMapping : Table RoleMapping.detectionRole) :
    (World.init alarmMapping roleMapping).Orderly S where
  faithful := faithful_init alarmMapping roleMapping
  nodup := List.nodup_nil
  removed := fun d k h => by contradiction

theorem World.Orderly.step {w : World} (h : w.Orderly S) (e : Event) :
    (Egress.step S w e).Orderly S := by
  have hquiet : ∀ {pc : Pc}, pc.Quiet → pc.ids.Nodup ∧ ∀ d k, pc ≠ .mark d k := by
    intro pc hpc
    rw [hpc.ids]
    refine ⟨List.nodup_nil, fun d k heq => ?_⟩
    rw [heq] at hpc
    exact hpc
  refine ⟨h.faithful.step e, ?_, ?_⟩
  · cases step_cases (S := S) w e with
    | others pc => rw [pc]; exact h.nodup
    | quiet pc => exact (hquiet pc).1
    | fault _ _ pc => exact (hquiet pc).1
    | reply now pc => rw [pc]; exact nodup_ids_resume h.nodup
  · intro d k hmark
    cases step_cases (S := S) w e with
    | others pc outbox =>
      rw [Stores.Outboxed, outbox]
      exact h.removed d k (pc ▸ hmark)
    | quiet pc => exact absurd hmark ((hquiet pc).2 d k)
    | fault _ _ pc => exact absurd hmark ((hquiet pc).2 d k)
    | reply now pc stores =>
      rw [stores]
      exact not_outboxed_of_resume_mark (pc ▸ hmark)

theorem orderly_run {w : World} (h : w.Orderly S) (es : List Event) :
    (run (Egress.step S) w es).Orderly S :=
  run_invariant (fun _ e hw => hw.step e) h es

/-! ## What a step does for the decision -/

/-- The decision is marked as sent by `mark_sent` and nothing else. -/
theorem isSent_step {w : World} (h : w.Faithful S) (e : Event) :
    (step S w e).stores.db.isSent d = true ↔
      w.stores.db.isSent d = true ∨ e.marks w = some d := by
  have heffect : ∀ now, (w.pc.effect S now w.stores).db.isSent d = true ↔
      w.stores.db.isSent d = true ∨ w.pc.marks = some d := by
    intro now
    rw [Pc.isSent_effect]
    refine or_congr_right (and_iff_left_of_imp fun hmarks => ?_)
    obtain ⟨event, hcode⟩ := hasCode_of_marks h.pc hmarks
    exact hcode.record_isSome
  cases step_cases (S := S) w e with
  | others _ _ _ db marks => simp [db.sent d, marks]
  | quiet _ _ stores marks => simp [stores, marks]
  | fault pe now _ stores marks =>
    rw [stores, marks]
    split
    · exact heffect now
    · simp
  | reply now _ stores marks => rw [stores, marks, heffect now]

/-- The outbox gets a decision from `add` and from nothing else. -/
theorem outboxed_step {w : World} {e : Event}
    (h : (step S w e).stores.Outboxed d) :
    w.stores.Outboxed d ∨ w.pc.adds = some d := by
  have heffect : ∀ now, (w.pc.effect S now w.stores).Outboxed d →
      w.stores.Outboxed d ∨ w.pc.adds = some d := by
    intro now hout
    rcases (Pc.outboxed_effect S now w.stores d w.pc).mp hout with hout | hadds
    · exact Or.inl hout.1
    · exact Or.inr hadds
  cases step_cases (S := S) w e with
  | others _ outbox =>
    rw [Stores.Outboxed, outbox] at h
    exact Or.inl h
  | quiet _ _ stores => exact Or.inl (stores ▸ h)
  | fault pe now _ stores =>
    rw [stores] at h
    split at h
    · exact heffect now h
    · exact Or.inl h
  | reply now _ stores => exact heffect now (stores ▸ h)

/-- A loop takes up what the outbox holds, or what is not sent. -/
theorem mem_ids_step {w : World} {e : Event}
    (h : d ∈ (step S w e).pc.ids) :
    d ∈ w.pc.ids ∨ (w.pc = .listOutbox ∧ w.stores.Outboxed d) ∨
      w.stores.db.isSent d = false := by
  cases step_cases (S := S) w e with
  | others pc => exact Or.inl (pc ▸ h)
  | quiet pc => rw [pc.ids] at h; contradiction
  | fault _ _ pc => rw [pc.ids] at h; contradiction
  | reply now pc =>
    rw [pc] at h
    rcases w.pc.ids_resume S w.stores with
      ⟨hpc, hids⟩ | ⟨-, hids⟩ | ⟨hids, -⟩ | ⟨d', hids, -⟩
    · rw [hids] at h
      obtain ⟨row, hrow, hd⟩ := List.mem_map.mp h
      exact Or.inr (Or.inl ⟨hpc, row, hrow, hd⟩)
    · rw [hids] at h
      obtain ⟨rec, hrec, rfl⟩ := List.mem_map.mp h
      exact Or.inr (Or.inr (mem_fetchPending hrec).2.2)
    · exact Or.inl (hids ▸ h)
    · rw [hids]
      exact Or.inl (List.mem_cons_of_mem d' h)

theorem mem_ids_of_adds {pc : Pc} (h : pc.adds = some d) : d ∈ pc.ids := by
  cases pc with
  | add rec values rest =>
    obtain rfl := Option.some.inj h
    exact List.mem_cons_self
  | _ => contradiction

theorem mem_ids_of_writes {pc : Pc} (h : pc.writes = some d) : d ∈ pc.ids := by
  cases pc with
  | write decisionId values k =>
    obtain rfl := Option.some.inj h
    exact List.mem_cons_self
  | _ => contradiction

theorem mem_ids_of_critical {pc : Pc} (h : pc.critical = some d) :
    d ∈ pc.ids := by
  cases pc with
  | remove decisionId k =>
    obtain rfl := Option.some.inj h
    exact List.mem_cons_self
  | mark decisionId k =>
    obtain rfl := Option.some.inj h
    exact List.mem_cons_self
  | _ => contradiction

theorem marks_of_event_marks {w : World} {e : Event} (h : e.marks w = some d) :
    w.pc.marks = some d := by
  cases e with
  | egress pe =>
    rw [Event.marks] at h
    split at h
    · exact h
    · contradiction
  | _ => contradiction

/-- Once marked, the decision is out of the loop. -/
theorem not_mem_ids_of_marks {w : World} {e : Event} (h : w.pc.ids.Nodup)
    (hmarks : e.marks w = some d) : d ∉ (step S w e).pc.ids := by
  cases step_cases (S := S) w e with
  | others _ _ _ _ marks => rw [marks] at hmarks; contradiction
  | quiet _ _ _ marks => rw [marks] at hmarks; contradiction
  | fault _ _ pc => rw [pc.ids]; exact List.not_mem_nil
  | reply now pc _ marks =>
    rw [marks] at hmarks
    rw [pc]
    rcases w.pc.ids_resume S w.stores with
      ⟨hpc, -⟩ | ⟨hpc, -⟩ | ⟨-, hnone⟩ | ⟨d', hids, hd'⟩
    · rw [hpc] at hmarks; contradiction
    · rw [hpc] at hmarks; contradiction
    · rw [hnone] at hmarks; contradiction
    · obtain rfl := Option.some.inj (hd'.symm.trans hmarks)
      rw [hids] at h
      exact (List.nodup_cons.mp h).1

end DustMonitoring.Egress
