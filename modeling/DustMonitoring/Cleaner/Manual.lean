import DustMonitoring.Cleaner.Purge

/-!
# The manual purge

`purge_all_frames` runs the purge loop until no frame is left.  A round
takes the oldest frames, and the ones whose file cannot be unlinked stay
where they are, so they are in the way of the next round as well.

* `complete_iff`: what is left after the purge are the frames whose file
  cannot be unlinked, exactly if no other frame has a whole batch of these
  in front of it.
* `fitsCap_of_length_lt`: a table of fewer frames than the cap on the
  rounds never reaches it.
-/

namespace DustMonitoring.Cleaner

open DustMonitoring.Lib DustMonitoring.Schema

/-- What `purge_all_frames` returns. -/
structure ManualResult where
  deleted : Nat
  unlinkFailures : Nat
  iterations : Nat
deriving DecidableEq, Repr

/-- The loop of `purge_all_frames`: it is not gated by the disk. -/
def purgeAllFrames (settings : CleanerSettings) : PurgeLoop where
  maxIterations := 100000
  batchSize := settings.batchSize
  proceed := fun _ => true

variable {β : Type*}

/-- What the call returns when it has left the loop. -/
def PurgeState.manualResult (s : PurgeState β) : Option ManualResult :=
  match s.pc with
  | .done => some ⟨s.deleted, s.unlinkFailures, s.iterations⟩
  | _ => none

namespace ManualPurge

open PurgeLoop

variable (settings : CleanerSettings) (gw : GatewayDb) (files : Files Path β)
  (stuck : Path → Bool)

/-- A call of `purge_all_frames` at the point that it comes to.  The files
that cannot be unlinked are the same all along. -/
def after (ties : List (CctvFrame → Nat)) : PurgeState β :=
  run (purgeAllFrames settings).step { gw := gw, files := files }
    (ties.map fun tie => { tie := tie, refuses := stuck })

/-- The call has returned. -/
def Returned (s : PurgeState β) : Prop := s.manualResult ≠ none

instance (s : PurgeState β) : Decidable (Returned s) :=
  inferInstanceAs (Decidable (s.manualResult ≠ none))

/-- The table is small enough for the cap on the rounds: the call never
leaves the loop because of the cap. -/
def FitsCap : Prop :=
  ∀ ties, (after settings gw files stuck ties).pc = .head →
    (after settings gw files stuck ties).iterations < (purgeAllFrames settings).maxIterations

/-- What the purge promises: when it returns, every frame whose file can be
unlinked or is missing is gone from the table and the disk. -/
def Complete : Prop :=
  ∀ ties, Returned (after settings gw files stuck ties) →
    ∀ f ∈ gw.cctvFrame.rows, stuck f.filePath = false →
      f ∉ (after settings gw files stuck ties).gw.cctvFrame.rows ∧
        (after settings gw files stuck ties).files f.filePath = none

/-- The frames that stay and do not come after `f`. -/
def stuckAhead (rows : List CctvFrame) (f : CctvFrame) : List CctvFrame :=
  Backlog.stuckAhead CctvFrame.receivedAt (fun g => stuck g.filePath) rows f

/-! ## Frames in front of no full batch of stuck ones -/

section Guarded

variable {settings gw files stuck}

/-- What the loop knows about a frame that it could delete and that is still
there: as long as no row of the batch was deleted, there is one in the rest
of the batch, or a whole batch of stuck frames is in front of the frame. -/
structure Guarded (limit : Nat) (stuck : Path → Bool) (s : PurgeState β) : Prop where
  batch : ∀ todo, s.pc = .unlink todo [] → ∀ f ∈ s.gw.cctvFrame.rows,
    stuck f.filePath = false → (∃ g ∈ todo, stuck g.filePath = false) ∨
      limit ≤ (stuckAhead stuck s.gw.cctvFrame.rows f).length
  done : s.pc = .done → ∀ f ∈ s.gw.cctvFrame.rows, stuck f.filePath = false →
    limit ≤ (stuckAhead stuck s.gw.cctvFrame.rows f).length

theorem nodup_rows (g : GatewayDb) : g.cctvFrame.rows.Nodup :=
  List.Nodup.of_map CctvFrame.id g.cctvFrame.nodup

/-- In a batch of the oldest frames there is one that can be deleted, unless
stuck frames fill it. -/
theorem exists_mem_oldestFrames {g : GatewayDb} {limit : Nat}
    (tie : CctvFrame → Nat) {f : CctvFrame} (hf : f ∈ g.cctvFrame.rows)
    (hfree : stuck f.filePath = false) :
    (∃ x ∈ oldestFrames g limit tie, stuck x.filePath = false) ∨
      limit ≤ (stuckAhead stuck g.cctvFrame.rows f).length := by
  by_cases hfew : (stuckAhead stuck g.cctvFrame.rows f).length < limit
  · have hserved : ∃ x ∈ Backlog.waiting CctvFrame.receivedAt
        (fun x : CctvFrame => stuck x.filePath) g.cctvFrame.rows f,
        x ∈ oldestFrames g limit tie :=
      Backlog.exists_served (nodup_rows g) hf hfree hfew
    obtain ⟨x, hx, hbatch⟩ := hserved
    have hxfree := (List.mem_filter.mp hx).2
    simp only [Bool.and_eq_true, Bool.not_eq_true'] at hxfree
    exact Or.inl ⟨x, hbatch, hxfree.1⟩
  · exact Or.inr (not_lt.mp hfew)

theorem guarded_move {s s' : PurgeState β} {r : Reading}
    (hmove : Move (purgeAllFrames settings) s r s') (hr : r.refuses = stuck)
    (hbatch : 0 ≤ settings.batchSize)
    (hcap : s.pc = .head → s.iterations < (purgeAllFrames settings).maxIterations)
    (h : Guarded settings.batchSize.toNat stuck s) :
    Guarded settings.batchSize.toNat stuck s' := by
  cases hmove with
  | idle => exact h
  | leave pc n hpc hfinished hn hunlink hlimit hwhy =>
    obtain rfl : pc = .done := hlimit hbatch
    refine ⟨fun _ hpc' => absurd hpc' (by simp), fun _ f hf hfree => ?_⟩
    rcases hpc with hpc | hpc
    · -- the batch was empty
      have hnil := hwhy hpc (hcap hpc) rfl hbatch
      rcases exists_mem_oldestFrames r.tie hf hfree with ⟨x, hx, -⟩ | hmany
      · exact absurd (hnil ▸ hx) List.not_mem_nil
      · exact hmany
    · rcases h.batch [] hpc f hf hfree with ⟨x, hx, -⟩ | hmany
      · exact absurd hx List.not_mem_nil
      · exact hmany
  | fetch rows hpc hlt hproceed hrows hne =>
    refine ⟨fun todo hpc' f hf hfree => ?_, fun hpc' => absurd hpc' (by simp)⟩
    cases hpc'
    rw [hrows]
    exact exists_mem_oldestFrames r.tie hf hfree
  | gone f fs ids n hpc hallowed =>
    exact ⟨fun _ hpc' => absurd hpc' (by simp), fun hpc' => absurd hpc' (by simp)⟩
  | refused f fs ids hpc hrefused =>
    refine ⟨fun todo hpc' x hx hfree => ?_, fun hpc' => absurd hpc' (by simp)⟩
    cases hpc'
    rcases h.batch (f :: fs) hpc x hx hfree with ⟨y, hy, hyfree⟩ | hmany
    · rcases List.mem_cons.mp hy with rfl | hy
      · rw [hr, hyfree] at hrefused
        exact absurd hrefused (by simp)
      · exact Or.inl ⟨y, hy, hyfree⟩
    · exact Or.inr hmany
  | attempted ids hpc hne =>
    exact ⟨fun _ hpc' => absurd hpc' (by simp), fun hpc' => absurd hpc' (by simp)⟩
  | delete ids hpc =>
    exact ⟨fun _ hpc' => absurd hpc' (by simp), fun hpc' => absurd hpc' (by simp)⟩

end Guarded

/-! ## A frame behind a full batch of stuck ones -/

section Stays

variable {settings stuck}

/-- The stuck frames that come first among those of one `received_at`. -/
def stuckFirst (stuck : Path → Bool) (f : CctvFrame) : Nat :=
  if stuck f.filePath then 0 else 1

/-- The frame is still there, and so is the batch of stuck frames in front
of it. -/
structure Stays (limit : Nat) (stuck : Path → Bool) (f : CctvFrame)
    (s : PurgeState β) : Prop where
  mem : f ∈ s.gw.cctvFrame.rows
  ahead : limit ≤ (stuckAhead stuck s.gw.cctvFrame.rows f).length
  todo : ∀ g ∈ s.pc.todo, g ∈ s.gw.cctvFrame.rows ∧ g ≠ f
  ids : ∀ g ∈ s.gw.cctvFrame.rows, g.id ∈ s.pc.successfulIds →
    stuck g.filePath = false ∧ g ≠ f
  running : s.pc ≠ .raised

/-- The stuck frames fill the batch. -/
theorem not_mem_oldestFrames {g : GatewayDb} {limit : Nat} {f : CctvFrame}
    (hfree : stuck f.filePath = false)
    (hmany : limit ≤ (stuckAhead stuck g.cctvFrame.rows f).length) :
    f ∉ oldestFrames g limit (stuckFirst stuck) := by
  intro hf
  have hahead : ∀ x ∈ stuckAhead stuck g.cctvFrame.rows f,
      toLex (x.receivedAt, stuckFirst stuck x) <
        toLex (f.receivedAt, stuckFirst stuck f) := by
    intro x hx
    have hx' := (List.mem_filter.mp hx).2
    simp only [Bool.and_eq_true, decide_eq_true_eq] at hx'
    rw [Prod.Lex.toLex_lt_toLex']
    simp [stuckFirst, hx'.1, hx'.2, hfree]
  have hlt := Backlog.length_lt_of_mem_batch ((nodup_rows g).filter _)
    (List.filter_subset_self _) hahead hf
  exact absurd hmany (not_le.mpr hlt)

theorem stays_move {s s' : PurgeState β} {r : Reading} {f : CctvFrame}
    (hmove : Move (purgeAllFrames settings) s r s') (hr : r.refuses = stuck)
    (htie : r.tie = stuckFirst stuck) (hbatch : 0 ≤ settings.batchSize)
    (hfree : stuck f.filePath = false)
    (h : Stays settings.batchSize.toNat stuck f s) :
    Stays settings.batchSize.toNat stuck f s' := by
  cases hmove with
  | idle => exact h
  | leave pc n hpc hfinished hn hunlink hlimit hwhy =>
    obtain rfl : pc = .done := hlimit hbatch
    exact ⟨h.mem, h.ahead, fun _ hx => absurd hx List.not_mem_nil,
      fun _ _ hx => absurd hx List.not_mem_nil, by simp⟩
  | fetch rows hpc hlt hproceed hrows hne =>
    refine ⟨h.mem, h.ahead, fun g hg => ?_, fun _ _ hx => absurd hx List.not_mem_nil,
      by simp⟩
    have hg' : g ∈ oldestFrames s.gw settings.batchSize.toNat r.tie := hrows ▸ hg
    refine ⟨mem_of_mem_oldestFrames hg', fun heq => ?_⟩
    rw [heq, htie] at hg'
    exact not_mem_oldestFrames hfree h.ahead hg'
  | gone x fs ids n hpc hallowed =>
    have htodo := h.todo
    have hids := h.ids
    simp only [hpc, Pc.todo, Pc.successfulIds] at htodo hids
    obtain ⟨hx, hxf⟩ := htodo x List.mem_cons_self
    refine ⟨h.mem, h.ahead, fun g hg => htodo g (List.mem_cons_of_mem x hg),
      fun g hg hid => ?_, by simp⟩
    rcases List.mem_append.mp hid with hid | hid
    · exact hids g hg hid
    · rw [eq_of_id_eq hg hx (List.mem_singleton.mp hid)]
      exact ⟨by rw [← hr]; exact hallowed, hxf⟩
  | refused x fs ids hpc hrefused =>
    have htodo := h.todo
    have hids := h.ids
    simp only [hpc, Pc.todo, Pc.successfulIds] at htodo hids
    exact ⟨h.mem, h.ahead, fun g hg => htodo g (List.mem_cons_of_mem x hg), hids, by simp⟩
  | attempted ids hpc hne =>
    have hids := h.ids
    simp only [hpc, Pc.successfulIds] at hids
    exact ⟨h.mem, h.ahead, fun _ hx => absurd hx List.not_mem_nil, hids, by simp⟩
  | delete ids hpc =>
    have hids := h.ids
    simp only [hpc, Pc.successfulIds] at hids
    refine ⟨?_, ?_, fun _ hx => absurd hx List.not_mem_nil,
      fun _ _ hx => absurd hx List.not_mem_nil, by simp⟩
    · refine rows_deleteFrameRows.mpr ⟨h.mem, fun hid => ?_⟩
      exact (hids f h.mem hid).2 rfl
    · -- none of the stuck frames is deleted
      have hkept : stuckAhead stuck s.gw.cctvFrame.rows f ⊆
          stuckAhead stuck (deleteFrameRows s.gw ids).cctvFrame.rows f := by
        intro g hg
        obtain ⟨hmem, hstuck⟩ := List.mem_filter.mp hg
        refine List.mem_filter.mpr ⟨rows_deleteFrameRows.mpr ⟨hmem, fun hid => ?_⟩, hstuck⟩
        simp [(hids g hmem hid).1] at hstuck
      have hle := (((nodup_rows s.gw).filter _).subperm hkept).length_le
      exact le_trans h.ahead hle

end Stays

/-! ## Whole calls -/

section Calls

variable {settings gw files stuck}

theorem returned_iff {s : PurgeState β} : Returned s ↔ s.pc = .done := by
  unfold Returned PurgeState.manualResult
  split
  · next hpc => simp [hpc]
  · next hpc => exact ⟨fun h => absurd rfl h, fun h => absurd h hpc⟩

theorem after_concat (ties : List (CctvFrame → Nat)) (tie : CctvFrame → Nat) :
    after settings gw files stuck (ties ++ [tie]) =
      (purgeAllFrames settings).step (after settings gw files stuck ties)
        { tie := tie, refuses := stuck } := by
  simp only [after, List.map_append, List.map_cons, List.map_nil, run_concat]

theorem guarded_after (hbatch : 0 ≤ settings.batchSize)
    (hcap : FitsCap settings gw files stuck) (ties : List (CctvFrame → Nat)) :
    Guarded settings.batchSize.toNat stuck (after settings gw files stuck ties) := by
  induction ties using List.reverseRecOn with
  | nil => exact ⟨fun _ h => absurd h (by simp [after]), fun h => absurd h (by simp [after])⟩
  | append_singleton ties tie ih =>
    rw [after_concat]
    exact guarded_move (step_move _ _ _) rfl hbatch (hcap ties) ih

/-- The database refuses the query of a negative batch. -/
theorem not_returned_of_neg (hbatch : settings.batchSize < 0)
    (hcap : FitsCap settings gw files stuck) (ties : List (CctvFrame → Nat)) :
    ¬ Returned (after settings gw files stuck ties) := by
  have hpc : (after settings gw files stuck ties).pc = .head ∨
      (after settings gw files stuck ties).pc = .raised := by
    induction ties using List.reverseRecOn with
    | nil => exact Or.inl rfl
    | append_singleton ties tie ih =>
      rw [after_concat]
      rcases ih with hpc | hpc
      · have hlt := hcap ties hpc
        have hproceed : (purgeAllFrames settings).proceed
            { tie := tie, refuses := stuck } = true := rfl
        have hneg : (purgeAllFrames settings).batchSize < 0 := hbatch
        right
        simp only [step, hpc, hlt, hproceed, hneg, if_true]
      · right
        rw [step_of_finished _ _ (by rw [hpc]; rfl), hpc]
  rw [returned_iff]
  rcases hpc with hpc | hpc
  · simp [hpc]
  · simp [hpc]

theorem stays_after {f : CctvFrame} (hbatch : 0 ≤ settings.batchSize)
    (hf : f ∈ gw.cctvFrame.rows) (hfree : stuck f.filePath = false)
    (hmany : settings.batchSize.toNat ≤ (stuckAhead stuck gw.cctvFrame.rows f).length)
    (n : Nat) :
    Stays settings.batchSize.toNat stuck f
      (after settings gw files stuck (List.replicate n (stuckFirst stuck))) := by
  induction n with
  | zero =>
    exact ⟨hf, hmany, fun _ h => absurd h List.not_mem_nil,
      fun _ _ h => absurd h List.not_mem_nil, by simp [after]⟩
  | succ n ih =>
    rw [List.replicate_succ', after_concat]
    exact stays_move (step_move _ _ _) rfl rfl hbatch hfree ih

theorem safe_after (ties : List (CctvFrame → Nat)) :
    ∃ refused, Safe gw (after settings gw files stuck ties) refused := by
  induction ties using List.reverseRecOn with
  | nil => exact ⟨[], safe_start gw files⟩
  | append_singleton ties tie ih =>
    obtain ⟨refused, hsafe⟩ := ih
    rw [after_concat]
    exact ⟨_, (step_move _ _ _).safe hsafe⟩

theorem paced_after (ties : List (CctvFrame → Nat)) :
    Paced gw.cctvFrame.rows.length (after settings gw files stuck ties) := by
  induction ties using List.reverseRecOn with
  | nil => exact paced_start gw files
  | append_singleton ties tie ih =>
    rw [after_concat]
    exact (step_move _ _ _).paced ih

/-- Every round takes a frame off the table, so fewer frames than rounds are
few enough. -/
theorem fitsCap_of_length_lt
    (h : gw.cctvFrame.rows.length < (purgeAllFrames settings).maxIterations) :
    FitsCap settings gw files stuck := by
  intro ties hpc
  have hpaced : Paced gw.cctvFrame.rows.length (after settings gw files stuck ties) :=
    paced_after ties
  have hhead := hpaced.head hpc
  omega

/-- A call with any answers of the database comes to an end. -/
theorem exists_finished (tie : CctvFrame → Nat) :
    ∃ n, (after settings gw files stuck (List.replicate n tie)).pc.finished = true := by
  refine ⟨(purgeAllFrames settings).work { gw := gw, files := files } + 1, ?_⟩
  apply finished_run
  simp

/-- On a table that is small enough for the cap the purge is complete
exactly if no frame that could be deleted has a whole batch of stuck frames
that do not come after it. -/
theorem complete_iff (hcap : FitsCap settings gw files stuck) :
    Complete settings gw files stuck ↔
      settings.batchSize < 0 ∨ ∀ f ∈ gw.cctvFrame.rows, stuck f.filePath = false →
        ((stuckAhead stuck gw.cctvFrame.rows f).length : Int) < settings.batchSize := by
  constructor
  · intro hcomplete
    by_contra hnot
    push Not at hnot
    obtain ⟨hbatch, f, hf, hfree, hmany⟩ := hnot
    have hmany' : settings.batchSize.toNat ≤
        (stuckAhead stuck gw.cctvFrame.rows f).length := by omega
    obtain ⟨n, hfinished⟩ : ∃ n, (after settings gw files stuck
        (List.replicate n (stuckFirst stuck))).pc.finished = true :=
      exists_finished (stuckFirst stuck)
    have hstays : Stays settings.batchSize.toNat stuck f (after settings gw files stuck
        (List.replicate n (stuckFirst stuck))) :=
      stays_after hbatch hf hfree hmany' n
    have hdone : Returned (after settings gw files stuck
        (List.replicate n (stuckFirst stuck))) := by
      rw [returned_iff]
      have hrunning := hstays.running
      cases hpc : (after settings gw files stuck
        (List.replicate n (stuckFirst stuck))).pc <;>
        simp [hpc, Pc.finished] at hfinished hrunning ⊢
    exact (hcomplete _ hdone f hf hfree).1 hstays.mem
  · intro hcond ties hreturned f hf hfree
    rcases hcond with hneg | hfew
    · exact absurd hreturned (not_returned_of_neg hneg hcap ties)
    · have hlt := hfew f hf hfree
      obtain ⟨refused, hsafe⟩ : ∃ refused,
          Safe gw (after settings gw files stuck ties) refused := safe_after ties
      have hguarded := guarded_after (by omega) hcap ties
      have hgone : f ∉ (after settings gw files stuck ties).gw.cctvFrame.rows := by
        intro hmem
        have hmany := hguarded.done (returned_iff.mp hreturned) f hmem hfree
        have hsub : stuckAhead stuck (after settings gw files stuck ties).gw.cctvFrame.rows f ⊆
            stuckAhead stuck gw.cctvFrame.rows f :=
          List.filter_subset _ fun g hg => hsafe.sub g hg
        have hle : (stuckAhead stuck
            (after settings gw files stuck ties).gw.cctvFrame.rows f).length ≤
            (stuckAhead stuck gw.cctvFrame.rows f).length :=
          (((nodup_rows _).filter _).subperm hsub).length_le
        omega
      exact ⟨hgone, hsafe.gone f hf hgone⟩

/-- Two frames, the older one with a file that cannot be unlinked, and
batches of one frame. -/
def blockedFrames : GatewayDb :=
  (GatewayDb.empty.insertFrame
    { id := 0, receivedAt := 100, amrId := "AMR-01", filePath := "/data/a.jpg" }).insertFrame
    { id := 0, receivedAt := 200, amrId := "AMR-01", filePath := "/data/b.jpg" }

theorem complete_of_batchOfTwo :
    FitsCap { batchSize := 2 } blockedFrames (fun _ => some ())
        (fun path => path == "/data/a.jpg") ∧
      Complete { batchSize := 2 } blockedFrames (fun _ => some ())
        (fun path => path == "/data/a.jpg") := by
  have hcap : FitsCap { batchSize := 2 } blockedFrames (fun _ => some ())
      (fun path => path == "/data/a.jpg") := fitsCap_of_length_lt (by decide)
  exact ⟨hcap, (complete_iff hcap).mpr (Or.inr (by decide))⟩

/-- The purge returns after one round, and the newer frame is still there
with its file. -/
theorem not_complete_blockedFrames :
    FitsCap { batchSize := 1 } blockedFrames (fun _ => some ())
        (fun path => path == "/data/a.jpg") ∧
      ¬ Complete { batchSize := 1 } blockedFrames (fun _ => some ())
        (fun path => path == "/data/a.jpg") := by
  refine ⟨fitsCap_of_length_lt (by decide), fun h => ?_⟩
  have hleft := h [fun _ => 0, fun _ => 0, fun _ => 0] (by decide)
    { id := 2, receivedAt := 200, amrId := "AMR-01", filePath := "/data/b.jpg" }
    (by decide) (by decide)
  revert hleft
  decide

end Calls

end ManualPurge

end DustMonitoring.Cleaner
