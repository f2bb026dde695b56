import DustMonitoring.Cleaner.Config
import DustMonitoring.Lib.Backlog
import DustMonitoring.Lib.Files
import DustMonitoring.Lib.Run
import DustMonitoring.Schema.Gateway

/-!
# The purge loop of the frames

`emergency_purge` and `purge_all_frames` of the cleaner share their loop:
fetch the oldest frames, unlink the file of each, delete the rows of those
whose file is gone, and stop when not one of them could be unlinked.  The
emergency purge reads the disk at the head of every round, and it has a
smaller cap on the rounds.

The loop is a machine that does one thing that can be seen from outside at
a time: fetch a batch, unlink one file, delete the rows of a batch.  A
state between two of its steps is a point at which the cleaner is suspended
or at which it may crash.  `Reading` is what the machine reads of the world
in a step: the usage of the disk, the order in which the query returns rows
of one `received_at`, and the files that the operating system refuses to
unlink.
-/

namespace DustMonitoring.Cleaner

open DustMonitoring.Lib DustMonitoring.Schema

/-- The path of an image. -/
abbrev Path := String

/-- What a step reads of the world around the cleaner. -/
structure Reading where
  diskPercent : Option Percent := none
  tie : CctvFrame → Nat := fun _ => 0
  refuses : Path → Bool := fun _ => false

/-- Where the loop is. -/
inductive Pc where
  | head
  | unlink (rows : List CctvFrame) (successfulIds : List Nat)
  | delete (successfulIds : List Nat)
  | done
  | raised
deriving DecidableEq, Repr

/-- What the two purges do differently. -/
structure PurgeLoop where
  maxIterations : Nat
  batchSize : Int
  proceed : Reading → Bool

/-- The database, the disk and the variables of the loop. -/
structure PurgeState (β : Type*) where
  gw : GatewayDb
  files : Files Path β
  pc : Pc := .head
  iterations : Nat := 0
  deleted : Nat := 0
  unlinkFailures : Nat := 0

namespace PurgeLoop

variable {β : Type*}

/-- `_OLDEST_CCTV_FRAME_SELECT_SQL`. -/
def oldestFrames (gw : GatewayDb) (limit : Nat) (tie : CctvFrame → Nat) :
    List CctvFrame :=
  Backlog.batch CctvFrame.receivedAt limit tie gw.cctvFrame.rows

/-- `_CCTV_FRAME_DELETE_SQL`. -/
def deleteFrameRows (gw : GatewayDb) (ids : List Nat) : GatewayDb :=
  gw.deleteFrames fun f => ids.contains f.id

/-- One step of the loop. -/
def step (loop : PurgeLoop) (s : PurgeState β) (r : Reading) : PurgeState β :=
  match s.pc with
  | .head =>
    if s.iterations < loop.maxIterations then
      let s := { s with iterations := s.iterations + 1 }
      if loop.proceed r then
        -- PostgreSQL refuses a negative LIMIT.
        if loop.batchSize < 0 then { s with pc := .raised }
        else match oldestFrames s.gw loop.batchSize.toNat r.tie with
          | [] => { s with pc := .done }
          | f :: fs => { s with pc := .unlink (f :: fs) [] }
      else { s with pc := .done }
    else { s with pc := .done }
  | .unlink (f :: fs) successfulIds =>
    match s.files.unlink f.filePath (r.refuses f.filePath) with
    | (.removed, files) =>
      { s with
        files := files
        deleted := s.deleted + 1
        pc := .unlink fs (successfulIds ++ [f.id]) }
    | (.notFound, files) =>
      { s with files := files, pc := .unlink fs (successfulIds ++ [f.id]) }
    | (.refused, files) =>
      { s with
        files := files
        unlinkFailures := s.unlinkFailures + 1
        pc := .unlink fs successfulIds }
  | .unlink [] successfulIds =>
    -- Not one file of the batch is gone: the next round would be the same.
    if successfulIds = [] then { s with pc := .done }
    else { s with pc := .delete successfulIds }
  | .delete successfulIds =>
    { s with gw := deleteFrameRows s.gw successfulIds, pc := .head }
  | .done | .raised => s

/-! ## What a step can do -/

end PurgeLoop

/-- The rows of the batch that are still to be unlinked. -/
def Pc.todo : Pc → List CctvFrame
  | .unlink rows _ => rows
  | _ => []

/-- The rows that the loop is going to delete. -/
def Pc.successfulIds : Pc → List Nat
  | .unlink _ ids | .delete ids => ids
  | _ => []

/-- The loop has been left. -/
def Pc.finished : Pc → Bool
  | .done | .raised => true
  | _ => false

namespace PurgeLoop

variable {β : Type*}

/-- The steps of the loop. -/
inductive Move (loop : PurgeLoop) (s : PurgeState β) (r : Reading) :
    PurgeState β → Prop
  | idle (h : s.pc.finished = true) : Move loop s r s
  | leave (pc : Pc) (n : Nat) (hpc : s.pc = .head ∨ s.pc = .unlink [] [])
      (hfinished : pc.finished = true) (hn : n ≤ s.iterations + 1)
      (hunlink : s.pc = .unlink [] [] → n = s.iterations)
      (hlimit : 0 ≤ loop.batchSize → pc = .done)
      (hwhy : s.pc = .head → s.iterations < loop.maxIterations →
        loop.proceed r = true → 0 ≤ loop.batchSize →
        oldestFrames s.gw loop.batchSize.toNat r.tie = []) :
      Move loop s r { s with pc := pc, iterations := n }
  | fetch (rows : List CctvFrame) (hpc : s.pc = .head)
      (hcap : s.iterations < loop.maxIterations) (hproceed : loop.proceed r = true)
      (hrows : rows = oldestFrames s.gw loop.batchSize.toNat r.tie) (hne : rows ≠ []) :
      Move loop s r { s with iterations := s.iterations + 1, pc := .unlink rows [] }
  | gone (f : CctvFrame) (fs : List CctvFrame) (ids : List Nat) (n : Nat)
      (hpc : s.pc = .unlink (f :: fs) ids) (hallowed : r.refuses f.filePath = false) :
      Move loop s r
        { s with
          files := (s.files.unlink f.filePath false).2
          deleted := n
          pc := .unlink fs (ids ++ [f.id]) }
  | refused (f : CctvFrame) (fs : List CctvFrame) (ids : List Nat)
      (hpc : s.pc = .unlink (f :: fs) ids) (hrefused : r.refuses f.filePath = true) :
      Move loop s r
        { s with unlinkFailures := s.unlinkFailures + 1, pc := .unlink fs ids }
  | attempted (ids : List Nat) (hpc : s.pc = .unlink [] ids) (hne : ids ≠ []) :
      Move loop s r { s with pc := .delete ids }
  | delete (ids : List Nat) (hpc : s.pc = .delete ids) :
      Move loop s r { s with gw := deleteFrameRows s.gw ids, pc := .head }

/-- The step of the loop at its head. -/
theorem move_head (loop : PurgeLoop) (s : PurgeState β) (r : Reading)
    (hpc : s.pc = .head) : Move loop s r (loop.step s r) := by
  simp only [step, hpc]
  split
  · next hcap =>
    split
    · next hproceed =>
      split
      · next hneg =>
        exact .leave .raised _ (Or.inl hpc) rfl le_rfl (by simp [hpc])
          (fun h => absurd h (not_le.mpr hneg)) (fun _ _ _ h => absurd h (not_le.mpr hneg))
      · split
        · next hrows =>
          exact .leave .done _ (Or.inl hpc) rfl le_rfl (by simp [hpc]) (fun _ => rfl)
            (fun _ _ _ _ => hrows)
        · next f fs hrows =>
          exact .fetch (f :: fs) hpc hcap hproceed hrows.symm (List.cons_ne_nil f fs)
    · next hstop =>
      exact .leave .done _ (Or.inl hpc) rfl le_rfl (by simp [hpc]) (fun _ => rfl)
        (fun _ _ h => absurd h hstop)
  · next hcap =>
    exact .leave .done s.iterations (Or.inl hpc) rfl (Nat.le_succ _) (fun _ => rfl)
      (fun _ => rfl) (fun _ h => absurd h hcap)

/-- The step of the loop within a batch. -/
theorem move_unlink (loop : PurgeLoop) (s : PurgeState β) (r : Reading)
    {rows : List CctvFrame} {ids : List Nat} (hpc : s.pc = .unlink rows ids) :
    Move loop s r (loop.step s r) := by
  cases rows with
  | nil =>
    simp only [step, hpc]
    split
    · next hnil =>
      rw [hnil] at hpc
      exact .leave .done s.iterations (Or.inr hpc) rfl (Nat.le_succ _) (fun _ => rfl)
        (fun _ => rfl) (fun h => by simp [hpc] at h)
    · next hne => exact .attempted ids hpc hne
  | cons f fs =>
    cases hr : r.refuses f.filePath with
    | true =>
      simp only [step, hpc, hr, Files.unlink, if_true]
      exact .refused f fs ids hpc hr
    | false =>
      have hgone := fun n => @Move.gone _ loop s r f fs ids n hpc hr
      cases hf : s.files f.filePath with
      | none =>
        simp only [Files.unlink, hf] at hgone
        simp only [step, hpc, hr, Files.unlink, hf]
        exact hgone s.deleted
      | some body =>
        simp only [Files.unlink, hf] at hgone
        simp only [step, hpc, hr, Files.unlink, hf]
        exact hgone (s.deleted + 1)

theorem step_move (loop : PurgeLoop) (s : PurgeState β) (r : Reading) :
    Move loop s r (loop.step s r) := by
  cases hpc : s.pc with
  | head => exact move_head loop s r hpc
  | unlink rows ids => exact move_unlink loop s r hpc
  | delete ids =>
    simp only [step, hpc]
    exact .delete ids hpc
  | done =>
    simp only [step, hpc]
    exact .idle (by rw [hpc]; rfl)
  | raised =>
    simp only [step, hpc]
    exact .idle (by rw [hpc]; rfl)

/-! ## What the loop keeps -/

theorem rows_deleteFrameRows {gw : GatewayDb} {ids : List Nat} {f : CctvFrame} :
    f ∈ (deleteFrameRows gw ids).cctvFrame.rows ↔
      f ∈ gw.cctvFrame.rows ∧ f.id ∉ ids := by
  show f ∈ (gw.cctvFrame.toTable.deleteWhere _).rows ↔ _
  simp

theorem mem_of_mem_oldestFrames {gw : GatewayDb} {limit : Nat}
    {tie : CctvFrame → Nat} {f : CctvFrame} (h : f ∈ oldestFrames gw limit tie) :
    f ∈ gw.cctvFrame.rows :=
  Backlog.batch_subset h

/-- A frame that is older than one of the batch is in the batch. -/
theorem mem_oldestFrames_of_older {gw : GatewayDb} {limit : Nat}
    {tie : CctvFrame → Nat} {f d : CctvFrame} (hf : f ∈ gw.cctvFrame.rows)
    (hd : d ∈ oldestFrames gw limit tie) (hlt : f.receivedAt < d.receivedAt) :
    f ∈ oldestFrames gw limit tie := by
  by_contra hout
  have hle := (Backlog.batch_of_not_mem hf hout).2 d hd
  exact absurd hlt (not_lt.mpr hle)

/-- The frames whose `os.unlink` was refused, over the steps of the loop. -/
def noteRefused (s : PurgeState β) (r : Reading) (refused : List Nat) : List Nat :=
  match s.pc with
  | .unlink (f :: _) _ =>
    if (s.files.unlink f.filePath (r.refuses f.filePath)).1 = .refused then
      f.id :: refused
    else refused
  | _ => refused

/-- What holds at every point of the loop, for the table that it started
with and the frames whose `os.unlink` was refused so far. -/
structure Safe (gw : GatewayDb) (s : PurgeState β) (refused : List Nat) : Prop where
  sub : ∀ f ∈ s.gw.cctvFrame.rows, f ∈ gw.cctvFrame.rows
  dust : s.gw.dustInspection = gw.dustInspection
  todo : ∀ f ∈ s.pc.todo, f ∈ s.gw.cctvFrame.rows
  gone : ∀ f ∈ gw.cctvFrame.rows, f ∉ s.gw.cctvFrame.rows → s.files f.filePath = none
  goneBatch : ∀ f ∈ s.gw.cctvFrame.rows, f.id ∈ s.pc.successfulIds →
    s.files f.filePath = none
  older : ∀ d ∈ gw.cctvFrame.rows, d ∉ s.gw.cctvFrame.rows →
    ∀ f ∈ s.gw.cctvFrame.rows, f.receivedAt < d.receivedAt → f.id ∈ refused
  olderBatch : ∀ d ∈ s.gw.cctvFrame.rows, d.id ∈ s.pc.successfulIds ∨ d ∈ s.pc.todo →
    ∀ f ∈ s.gw.cctvFrame.rows, f.receivedAt < d.receivedAt →
      f ∈ s.pc.todo ∨ f.id ∈ s.pc.successfulIds ∨ f.id ∈ refused

theorem safe_start (gw : GatewayDb) (files : Files Path β) :
    Safe gw { gw := gw, files := files } [] where
  sub := fun _ h => h
  dust := rfl
  todo := fun _ h => absurd h List.not_mem_nil
  gone := fun _ h hnot => absurd h hnot
  goneBatch := fun _ _ h => absurd h List.not_mem_nil
  older := fun _ h hnot => absurd h hnot
  olderBatch := fun _ _ h => by simp [Pc.successfulIds, Pc.todo] at h

/-- The row of an id is unique. -/
theorem eq_of_id_eq {gw : GatewayDb} {f g : CctvFrame} (hf : f ∈ gw.cctvFrame.rows)
    (hg : g ∈ gw.cctvFrame.rows) (h : f.id = g.id) : f = g :=
  gw.cctvFrame.eq_of_key_eq hf hg h

section Preserved

variable {gw : GatewayDb} {s : PurgeState β} {refused : List Nat}

/-- Between batches nothing is waiting to be unlinked or deleted. -/
theorem Safe.between (h : Safe gw s refused) (pc : Pc) (n : Nat)
    (htodo : pc.todo = []) (hids : pc.successfulIds = []) :
    Safe gw { s with pc := pc, iterations := n } refused where
  sub := h.sub
  dust := h.dust
  todo := by simp [htodo]
  gone := h.gone
  goneBatch := by simp [hids]
  older := h.older
  olderBatch := by simp [htodo, hids]

theorem Safe.fetch (h : Safe gw s refused) (limit : Nat) (tie : CctvFrame → Nat)
    (n : Nat) :
    Safe gw { s with iterations := n, pc := .unlink (oldestFrames s.gw limit tie) [] }
      refused where
  sub := h.sub
  dust := h.dust
  todo := fun _ hf => mem_of_mem_oldestFrames hf
  gone := h.gone
  goneBatch := fun _ _ hf => absurd hf List.not_mem_nil
  older := h.older
  olderBatch := by
    intro d hd hbatch f hf hlt
    have hin : d ∈ oldestFrames s.gw limit tie :=
      hbatch.resolve_left List.not_mem_nil
    exact Or.inl (mem_oldestFrames_of_older hf hin hlt)

/-- The file of the next row of the batch is gone. -/
theorem Safe.gone_unlink (h : Safe gw s refused) {f : CctvFrame}
    {fs : List CctvFrame} {ids : List Nat} (hpc : s.pc = .unlink (f :: fs) ids)
    (n : Nat) :
    Safe gw
      { s with
        files := (s.files.unlink f.filePath false).2
        deleted := n
        pc := .unlink fs (ids ++ [f.id]) } refused := by
  have htodo := h.todo
  have hbatch := h.goneBatch
  have holder := h.olderBatch
  simp only [hpc, Pc.todo, Pc.successfulIds] at htodo hbatch holder
  have hf : f ∈ s.gw.cctvFrame.rows := htodo f List.mem_cons_self
  have hfile : (s.files.unlink f.filePath false).2 f.filePath = none :=
    Files.unlink_same (by simp [Files.unlink_refused_iff])
  refine
    { sub := h.sub
      dust := h.dust
      todo := fun x hx => htodo x (List.mem_cons_of_mem f hx)
      gone := fun x hx hnot => Files.unlink_eq_none _ _ (h.gone x hx hnot)
      goneBatch := ?_
      older := h.older
      olderBatch := ?_ }
  · intro x hx hid
    rcases List.mem_append.mp hid with hid | hid
    · exact Files.unlink_eq_none _ _ (hbatch x hx hid)
    · rw [eq_of_id_eq hx hf (List.mem_singleton.mp hid)]
      exact hfile
  · intro d hd hin x hx hlt
    have hin' : d.id ∈ ids ∨ d ∈ f :: fs := by
      rcases hin with hid | hrest
      · rcases List.mem_append.mp hid with hid | hid
        · exact Or.inl hid
        · rw [eq_of_id_eq hd hf (List.mem_singleton.mp hid)]
          exact Or.inr List.mem_cons_self
      · exact Or.inr (List.mem_cons_of_mem f hrest)
    rcases holder d hd hin' x hx hlt with hx' | hx' | hx'
    · rcases List.mem_cons.mp hx' with rfl | hx'
      · exact Or.inr (Or.inl (List.mem_append_right ids (List.mem_singleton_self _)))
      · exact Or.inl hx'
    · exact Or.inr (Or.inl (List.mem_append_left _ hx'))
    · exact Or.inr (Or.inr hx')

/-- The next row of the batch stays, and it is noted. -/
theorem Safe.refused_unlink (h : Safe gw s refused) {f : CctvFrame}
    {fs : List CctvFrame} {ids : List Nat} (hpc : s.pc = .unlink (f :: fs) ids)
    (n : Nat) :
    Safe gw { s with unlinkFailures := n, pc := .unlink fs ids }
      (f.id :: refused) := by
  have htodo := h.todo
  have hbatch := h.goneBatch
  have holder := h.olderBatch
  simp only [hpc, Pc.todo, Pc.successfulIds] at htodo hbatch holder
  refine
    { sub := h.sub
      dust := h.dust
      todo := fun x hx => htodo x (List.mem_cons_of_mem f hx)
      gone := h.gone
      goneBatch := hbatch
      older := fun d hd hnot x hx hlt =>
        List.mem_cons_of_mem f.id (h.older d hd hnot x hx hlt)
      olderBatch := ?_ }
  intro d hd hin x hx hlt
  have hin' : d.id ∈ ids ∨ d ∈ f :: fs := hin.imp id (List.mem_cons_of_mem f)
  rcases holder d hd hin' x hx hlt with hx' | hx' | hx'
  · rcases List.mem_cons.mp hx' with rfl | hx'
    · exact Or.inr (Or.inr List.mem_cons_self)
    · exact Or.inl hx'
  · exact Or.inr (Or.inl hx')
  · exact Or.inr (Or.inr (List.mem_cons_of_mem f.id hx'))

theorem Safe.delete (h : Safe gw s refused) {ids : List Nat}
    (hpc : s.pc = .delete ids) :
    Safe gw { s with gw := deleteFrameRows s.gw ids, pc := .head } refused := by
  have hbatch := h.goneBatch
  have holder := h.olderBatch
  simp only [hpc, Pc.todo, Pc.successfulIds] at hbatch holder
  -- a row that is gone now was gone before, or is one of the batch
  have hcases : ∀ d, d ∉ (deleteFrameRows s.gw ids).cctvFrame.rows →
      d ∉ s.gw.cctvFrame.rows ∨ (d ∈ s.gw.cctvFrame.rows ∧ d.id ∈ ids) := by
    intro d hd
    rw [rows_deleteFrameRows] at hd
    by_cases hmem : d ∈ s.gw.cctvFrame.rows
    · exact Or.inr ⟨hmem, by_contra fun hid => hd ⟨hmem, hid⟩⟩
    · exact Or.inl hmem
  refine
    { sub := fun f hf => h.sub f (rows_deleteFrameRows.mp hf).1
      dust := h.dust
      todo := fun _ hf => absurd hf List.not_mem_nil
      gone := ?_
      goneBatch := fun _ _ hf => absurd hf List.not_mem_nil
      older := ?_
      olderBatch := fun _ _ hin => by simp [Pc.successfulIds, Pc.todo] at hin }
  · intro d hd hnot
    rcases hcases d hnot with hnot | ⟨hmem, hid⟩
    · exact h.gone d hd hnot
    · exact hbatch d hmem hid
  · intro d hd hnot f hf hlt
    obtain ⟨hf, hfid⟩ := rows_deleteFrameRows.mp hf
    rcases hcases d hnot with hnot | ⟨hmem, hid⟩
    · exact h.older d hd hnot f hf hlt
    · rcases holder d hmem (Or.inl hid) f hf hlt with hx | hx | hx
      · exact absurd hx List.not_mem_nil
      · exact absurd hx hfid
      · exact hx

end Preserved

/-- Every step keeps `Safe`. -/
theorem Move.safe {loop : PurgeLoop} {gw : GatewayDb} {s s' : PurgeState β}
    {r : Reading} {refused : List Nat} (hmove : Move loop s r s')
    (h : Safe gw s refused) : Safe gw s' (noteRefused s r refused) := by
  cases hmove with
  | idle hpc =>
    have hnote : noteRefused s r refused = refused := by
      unfold noteRefused
      split
      · next hs => simp [hs, Pc.finished] at hpc
      · rfl
    rwa [hnote]
  | leave pc n hpc hfinished hn hunlink hlimit hwhy =>
    have hnote : noteRefused s r refused = refused := by
      rcases hpc with hpc | hpc <;> simp [noteRefused, hpc]
    rw [hnote]
    cases pc <;> simp [Pc.finished] at hfinished
    · exact h.between .done n rfl rfl
    · exact h.between .raised n rfl rfl
  | fetch rows hpc hcap hproceed hrows hne =>
    simp only [noteRefused, hpc, hrows]
    exact h.fetch _ _ _
  | gone f fs ids n hpc hallowed =>
    have hnote : noteRefused s r refused = refused := by
      simp [noteRefused, hpc, Files.unlink_refused_iff, hallowed]
    rw [hnote]
    exact h.gone_unlink hpc n
  | refused f fs ids hpc hrefused =>
    have hnote : noteRefused s r refused = f.id :: refused := by
      simp [noteRefused, hpc, Files.unlink_refused_iff, hrefused]
    rw [hnote]
    exact h.refused_unlink hpc _
  | attempted ids hpc hne =>
    have hbatch := h.goneBatch
    have holder := h.olderBatch
    simp only [noteRefused, hpc, Pc.todo, Pc.successfulIds] at hbatch holder ⊢
    exact { h with
      todo := fun _ hf => absurd hf List.not_mem_nil
      goneBatch := hbatch
      olderBatch := holder }
  | delete ids hpc =>
    simp only [noteRefused, hpc]
    exact h.delete hpc

/-- The file of a row that a step deletes is gone before the step. -/
theorem Move.file_gone {loop : PurgeLoop} {gw : GatewayDb} {s s' : PurgeState β}
    {r : Reading} {refused : List Nat} (hmove : Move loop s r s')
    (h : Safe gw s refused) {f : CctvFrame} (hf : f ∈ s.gw.cctvFrame.rows)
    (hnot : f ∉ s'.gw.cctvFrame.rows) : s.files f.filePath = none := by
  cases hmove with
  | delete ids hpc =>
    refine h.goneBatch f hf ?_
    rw [hpc]
    by_contra hid
    exact hnot (rows_deleteFrameRows.mpr ⟨hf, hid⟩)
  | idle => exact absurd hf hnot
  | leave => exact absurd hf hnot
  | fetch => exact absurd hf hnot
  | gone => exact absurd hf hnot
  | refused => exact absurd hf hnot
  | attempted => exact absurd hf hnot

/-! ## The loop comes to an end -/

/-- The steps that the loop can still make. -/
def work (loop : PurgeLoop) (s : PurgeState β) : Nat :=
  let rounds := (loop.maxIterations - s.iterations) * (s.gw.cctvFrame.rows.length + 3)
  match s.pc with
  | .head => rounds + 1
  | .unlink rows _ => rounds + rows.length + 3
  | .delete _ => rounds + 2
  | .done | .raised => 0

theorem length_oldestFrames_le (gw : GatewayDb) (limit : Nat)
    (tie : CctvFrame → Nat) :
    (oldestFrames gw limit tie).length ≤ gw.cctvFrame.rows.length := by
  have hlen := (perm_orderBy (fun f => toLex (f.receivedAt, tie f))
    gw.cctvFrame.rows).length_eq
  show (List.take _ _).length ≤ _
  rw [List.length_take, hlen]
  omega

theorem length_deleteFrameRows_le (gw : GatewayDb) (ids : List Nat) :
    (deleteFrameRows gw ids).cctvFrame.rows.length ≤ gw.cctvFrame.rows.length :=
  List.length_filter_le _ _

/-- Deleting the row of a batch makes the table smaller. -/
theorem length_deleteFrameRows_lt {gw : GatewayDb} {ids : List Nat} {f : CctvFrame}
    (hf : f ∈ gw.cctvFrame.rows) (hid : f.id ∈ ids) :
    (deleteFrameRows gw ids).cctvFrame.rows.length < gw.cctvFrame.rows.length := by
  apply List.length_filter_lt_length_iff_exists.mpr
  exact ⟨f, hf, by simp [hid]⟩

/-- Every step but the idle one leaves less work. -/
theorem Move.work_lt {loop : PurgeLoop} {s s' : PurgeState β} {r : Reading}
    (hmove : Move loop s r s') (h : ¬ s.pc.finished = true) :
    loop.work s' < loop.work s := by
  cases hmove with
  | idle hpc => exact absurd hpc h
  | leave pc n hpc hfinished hn hunlink hlimit hwhy =>
    have hzero : loop.work { s with pc := pc, iterations := n } = 0 := by
      cases pc <;> simp [Pc.finished] at hfinished <;> rfl
    have hpos : 0 < loop.work s := by
      rcases hpc with hpc | hpc <;> simp [work, hpc]
    omega
  | fetch rows hpc hcap hproceed hrows hne =>
    have hlen := length_oldestFrames_le s.gw loop.batchSize.toNat r.tie
    have hround : loop.maxIterations - s.iterations =
        loop.maxIterations - (s.iterations + 1) + 1 := by omega
    simp only [work, hpc, hrows]
    rw [hround, Nat.succ_mul]
    omega
  | gone f fs ids n hpc hallowed =>
    simp only [work, hpc, List.length_cons]
    omega
  | refused f fs ids hpc hrefused =>
    simp only [work, hpc, List.length_cons]
    omega
  | attempted ids hpc hne =>
    simp only [work, hpc, List.length_nil]
    omega
  | delete ids hpc =>
    have hrounds := Nat.mul_le_mul_left (loop.maxIterations - s.iterations)
      (Nat.add_le_add_right (length_deleteFrameRows_le s.gw ids) 3)
    simp only [work, hpc]
    omega

/-- Where the loop has been left nothing happens any more. -/
theorem step_of_finished (loop : PurgeLoop) {s : PurgeState β} (r : Reading)
    (h : s.pc.finished = true) : loop.step s r = s := by
  cases hpc : s.pc <;> simp [hpc, Pc.finished] at h <;> simp only [step, hpc]

/-- Whatever the readings are, the loop is left. -/
theorem finished_run (loop : PurgeLoop) {s : PurgeState β} {rs : List Reading}
    (hlen : loop.work s < rs.length) : (run loop.step s rs).pc.finished = true := by
  have hkeep : ∀ (t : PurgeState β) r, t.pc.finished = true → (loop.step t r).pc.finished = true :=
    fun t r ht => by rwa [step_of_finished loop r ht]
  have hdown : ∀ (t : PurgeState β) r, ¬ t.pc.finished = true →
      loop.work (loop.step t r) < loop.work t :=
    fun t r ht => (step_move loop t r).work_lt ht
  exact run_finishes loop.work hkeep hdown hlen

/-- How far the loop has come: every round but the last takes a row off the
table. -/
structure Paced (n : Nat) (s : PurgeState β) : Prop where
  todo : ∀ f ∈ s.pc.todo, f ∈ s.gw.cctvFrame.rows
  ids : ∀ i ∈ s.pc.successfulIds, ∃ f ∈ s.gw.cctvFrame.rows, f.id = i
  delete : ∀ ids, s.pc = .delete ids → ids ≠ []
  head : s.pc = .head → s.iterations + s.gw.cctvFrame.rows.length ≤ n
  rounds : s.iterations + s.gw.cctvFrame.rows.length ≤ n + 1

theorem paced_start (gw : GatewayDb) (files : Files Path β) :
    Paced gw.cctvFrame.rows.length { gw := gw, files := files } where
  todo := fun _ h => absurd h List.not_mem_nil
  ids := fun _ h => absurd h List.not_mem_nil
  delete := fun _ h => absurd h (by simp)
  head := fun _ => by simp
  rounds := by simp

theorem Move.paced {loop : PurgeLoop} {n : Nat} {s s' : PurgeState β} {r : Reading}
    (hmove : Move loop s r s') (h : Paced n s) : Paced n s' := by
  cases hmove with
  | idle hpc => exact h
  | leave pc m hpc hfinished hm hunlink hlimit hwhy =>
    have hrounds : m + s.gw.cctvFrame.rows.length ≤ n + 1 := by
      rcases hpc with hpc | hpc
      · have := h.head hpc
        omega
      · rw [hunlink hpc]
        exact h.rounds
    cases pc <;> simp [Pc.finished] at hfinished
    · exact ⟨fun _ hx => absurd hx List.not_mem_nil, fun _ hx => absurd hx List.not_mem_nil,
        fun _ hx => absurd hx (by simp), fun hx => absurd hx (by simp), hrounds⟩
    · exact ⟨fun _ hx => absurd hx List.not_mem_nil, fun _ hx => absurd hx List.not_mem_nil,
        fun _ hx => absurd hx (by simp), fun hx => absurd hx (by simp), hrounds⟩
  | fetch rows hpc hcap hproceed hrows hne =>
    have hhead := h.head hpc
    refine ⟨fun f hf => ?_, fun _ hx => absurd hx List.not_mem_nil,
      fun _ hx => absurd hx (by simp), fun hx => absurd hx (by simp), ?_⟩
    · exact mem_of_mem_oldestFrames (hrows ▸ hf)
    · show s.iterations + 1 + s.gw.cctvFrame.rows.length ≤ n + 1
      omega
  | gone f fs ids m hpc hallowed =>
    have htodo := h.todo
    have hids := h.ids
    simp only [hpc, Pc.todo, Pc.successfulIds] at htodo hids
    refine ⟨fun x hx => htodo x (List.mem_cons_of_mem f hx), fun i hi => ?_,
      fun _ hx => absurd hx (by simp), fun hx => absurd hx (by simp), h.rounds⟩
    rcases List.mem_append.mp hi with hi | hi
    · exact hids i hi
    · exact ⟨f, htodo f List.mem_cons_self, (List.mem_singleton.mp hi).symm⟩
  | refused f fs ids hpc hrefused =>
    have htodo := h.todo
    have hids := h.ids
    simp only [hpc, Pc.todo, Pc.successfulIds] at htodo hids
    exact ⟨fun x hx => htodo x (List.mem_cons_of_mem f hx), hids,
      fun _ hx => absurd hx (by simp), fun hx => absurd hx (by simp), h.rounds⟩
  | attempted ids hpc hne =>
    have hids := h.ids
    simp only [hpc, Pc.successfulIds] at hids
    refine ⟨fun _ hx => absurd hx List.not_mem_nil, hids, fun ids' hids' => ?_,
      fun hx => absurd hx (by simp), h.rounds⟩
    cases hids'
    exact hne
  | delete ids hpc =>
    have hids := h.ids
    simp only [hpc, Pc.successfulIds] at hids
    obtain ⟨i, hi⟩ := List.exists_mem_of_ne_nil ids (h.delete ids hpc)
    obtain ⟨f, hf, rfl⟩ := hids i hi
    have hlt := length_deleteFrameRows_lt hf hi
    have hrounds := h.rounds
    refine ⟨fun _ hx => absurd hx List.not_mem_nil, fun _ hx => absurd hx List.not_mem_nil,
      fun _ hx => absurd hx (by simp), fun _ => ?_, ?_⟩
    · show s.iterations + (deleteFrameRows s.gw ids).cctvFrame.rows.length ≤ n
      omega
    · show s.iterations + (deleteFrameRows s.gw ids).cctvFrame.rows.length ≤ n + 1
      omega

end PurgeLoop

end DustMonitoring.Cleaner
