import DustMonitoring.Correlator.Schedule

/-!
# The order of the scan

`ORDER BY` leaves rows that are equal to it in the order in which they were
scanned, and `DISTINCT ON` keeps the first.  Here the rows of a table stand
in the order in which a tick scans them, and a tick on the same content in
another order is another run.

Main results:

* `selection_scan_eq` -- while no candidate has two nearest measurements the
  order does not show;
* `deterministic_iff` -- the pairing of a tick is the same for all orders
  exactly in that case.
-/

namespace DustMonitoring.Correlator

open DustMonitoring.Lib DustMonitoring.Schema

/-! ## A tick in the order of the rows -/

/-- The place of a measurement in the scan. -/
def place (dusts : List DustInspection) (d : DustInspection) : Nat :=
  dusts.findIdx fun row => decide (row.id = d.id)

/-- A pass that scans the measurements in the order in which they stand. -/
def scanPass (clock : Nat → Timestamp) (gw : GatewayDb) : Pass :=
  ⟨clock, fun _ d => place gw.dustInspection.rows d⟩

/-- The same rows of `cctv_frame` and `dust_inspection`, in any order. -/
structure SameContent (gw gw' : GatewayDb) : Prop where
  frames : gw.cctvFrame.rows.Perm gw'.cctvFrame.rows
  dusts : gw.dustInspection.rows.Perm gw'.dustInspection.rows

namespace FrameCorrelator

variable (c : FrameCorrelator)

/-- `tick` on the rows in their order. -/
def scanTick (clock : Nat → Timestamp) (gw : GatewayDb) : GatewayDb :=
  (c.tick (scanPass clock gw) gw).1

/-- All orders of the rows lead to the same pairing. -/
def Deterministic (clock : Nat → Timestamp) (gw : GatewayDb) : Prop :=
  ∀ gw₁ gw₂, SameContent gw gw₁ → SameContent gw gw₂ →
    ∀ k, pairedTo (c.scanTick clock gw₁) k = pairedTo (c.scanTick clock gw₂) k

/-- No unpaired frame in the lookback has two measurements at its smallest
distance, among those in whose windows it lies. -/
def OneNearest (clock : Nat → Timestamp) (gw : GatewayDb) : Prop :=
  ∀ f ∈ gw.cctvFrame.rows, f.dustInspectionId = none →
    c.inLookback (scanPass clock gw) f = true →
    ∀ d d', c.IsNearest gw.dustInspection.rows f d →
      c.IsNearest gw.dustInspection.rows f d' → d = d'

variable {c} {clock : Nat → Timestamp} {gw gw₁ gw₂ : GatewayDb} {f : CctvFrame}

/-! ## When the order does not show -/

theorem IsNearest.perm {dusts dusts' : List DustInspection} {d : DustInspection}
    (hperm : dusts.Perm dusts') (h : c.IsNearest dusts' f d) : c.IsNearest dusts f d where
  mem := hperm.mem_iff.mpr h.mem
  inWindow := h.inWindow
  le := fun d' hd' hw => h.le d' (hperm.mem_iff.mp hd') hw

theorem nearest_scan_eq (h₁ : SameContent gw gw₁) (h₂ : SameContent gw gw₂)
    (hone : ∀ d d', c.IsNearest gw.dustInspection.rows f d →
      c.IsNearest gw.dustInspection.rows f d' → d = d') :
    c.nearest (scanPass clock gw₁) gw₁.dustInspection.rows f =
      c.nearest (scanPass clock gw₂) gw₂.dustInspection.rows f := by
  have hperm := h₁.dusts.symm.trans h₂.dusts
  cases hleft : c.nearest (scanPass clock gw₁) gw₁.dustInspection.rows f with
  | none =>
    symm
    rw [nearest_eq_none_iff] at hleft ⊢
    exact fun d hd => hleft d (hperm.mem_iff.mpr hd)
  | some d =>
    cases hright : c.nearest (scanPass clock gw₂) gw₂.dustInspection.rows f with
    | none =>
      have hnearest := c.isNearest_of_nearest hleft
      have hout := c.nearest_eq_none_iff.mp hright d (hperm.mem_iff.mp hnearest.mem)
      rw [hnearest.inWindow] at hout
      contradiction
    | some d' =>
      rw [hone d d' ((c.isNearest_of_nearest hleft).perm h₁.dusts)
        ((c.isNearest_of_nearest hright).perm h₂.dusts)]

/-- The order does not show in what a frame is paired with. -/
theorem selection_scan_eq (h₁ : SameContent gw gw₁) (h₂ : SameContent gw gw₂)
    (hone : c.OneNearest clock gw) (hf : f ∈ gw.cctvFrame.rows) :
    c.selection (scanPass clock gw₁) gw₁ f = c.selection (scanPass clock gw₂) gw₂ f := by
  have hlook : c.inLookback (scanPass clock gw₂) f = c.inLookback (scanPass clock gw₁) f := rfl
  unfold selection
  rw [hlook]
  split
  · next hcandidate =>
    rw [Bool.and_eq_true, Option.isNone_iff_eq_none] at hcandidate
    rw [nearest_scan_eq h₁ h₂ (hone f hf hcandidate.1 hcandidate.2)]
  · rfl

/-- The frame that a tick pairs, or leaves as it is. -/
theorem pairedTo_scanTick_iff {k i : Nat} :
    pairedTo (c.scanTick clock gw) k = some i ↔
      ∃ f ∈ gw.cctvFrame.rows, f.id = k ∧
        (c.selection (scanPass clock gw) gw f).or f.dustInspectionId = some i := by
  have hpaired (f : CctvFrame) : (c.pairFrame (scanPass clock gw) gw f).id = f.id ∧
      (c.pairFrame (scanPass clock gw) gw f).dustInspectionId =
        (c.selection (scanPass clock gw) gw f).or f.dustInspectionId := by
    unfold pairFrame
    cases c.selection (scanPass clock gw) gw f with
    | none => exact ⟨rfl, rfl⟩
    | some i => exact ⟨rfl, rfl⟩
  rw [pairedTo_eq_some_iff]
  constructor
  · rintro ⟨g, hg, hid, hi⟩
    obtain ⟨f, hf, rfl⟩ := c.mem_cctvFrame_pairSql.mp hg
    exact ⟨f, hf, (hpaired f).1 ▸ hid, (hpaired f).2 ▸ hi⟩
  · rintro ⟨f, hf, hid, hi⟩
    refine ⟨_, c.mem_cctvFrame_pairSql.mpr ⟨f, hf, rfl⟩, ?_, ?_⟩
    · rw [(hpaired f).1, hid]
    · rw [(hpaired f).2, hi]

theorem deterministic_of_oneNearest (hone : c.OneNearest clock gw) :
    c.Deterministic clock gw := by
  have himp (gw₁ gw₂ : GatewayDb) (h₁ : SameContent gw gw₁) (h₂ : SameContent gw gw₂)
      (k i : Nat) (h : pairedTo (c.scanTick clock gw₁) k = some i) :
      pairedTo (c.scanTick clock gw₂) k = some i := by
    obtain ⟨f, hf, hid, hi⟩ := pairedTo_scanTick_iff.mp h
    have hfg : f ∈ gw.cctvFrame.rows := h₁.frames.mem_iff.mpr hf
    refine pairedTo_scanTick_iff.mpr ⟨f, h₂.frames.mem_iff.mp hfg, hid, ?_⟩
    rw [← selection_scan_eq h₁ h₂ hone hfg, hi]
  intro gw₁ gw₂ h₁ h₂ k
  apply Option.ext
  intro i
  exact ⟨himp gw₁ gw₂ h₁ h₂ k i, himp gw₂ gw₁ h₂ h₁ k i⟩

/-! ## When it does -/

/-- There is an order that scans a measurement first. -/
theorem exists_scanned_first {d : DustInspection} (hd : d ∈ gw.dustInspection.rows) :
    ∃ gw', SameContent gw gw' ∧ gw'.cctvFrame = gw.cctvFrame ∧
      place gw'.dustInspection.rows d = 0 := by
  obtain ⟨before, behind, hrows⟩ := List.append_of_mem hd
  have hperm : gw.dustInspection.rows.Perm (d :: (before ++ behind)) := by
    rw [hrows]
    exact List.perm_middle
  refine ⟨{ gw with dustInspection := gw.dustInspection.reorder _ hperm },
    ⟨List.Perm.refl _, hperm⟩, rfl, ?_⟩
  show (d :: (before ++ behind)).findIdx (fun row => decide (row.id = d.id)) = 0
  rw [List.findIdx_cons]
  simp

theorem id_eq_of_place_eq_zero {dusts : List DustInspection} {d e : DustInspection}
    (hd : d ∈ dusts) (he : e ∈ dusts) (hplace : place dusts d = 0)
    (hplace' : place dusts e = 0) : e.id = d.id := by
  cases dusts with
  | nil => exact absurd hd List.not_mem_nil
  | cons x rest =>
    unfold place at hplace hplace'
    rw [List.findIdx_cons] at hplace hplace'
    have hx : x.id = d.id := by
      by_contra hne
      simp [hne] at hplace
    have hx' : x.id = e.id := by
      by_contra hne
      simp [hne] at hplace'
    exact hx'.symm.trans hx

/-- A nearest measurement that is scanned first is the one that is kept. -/
theorem selection_scanned_first {d : DustInspection}
    (hnone : f.dustInspectionId = none) (hlook : c.inLookback (scanPass clock gw) f = true)
    (hd : c.IsNearest gw.dustInspection.rows f d)
    (hfirst : place gw.dustInspection.rows d = 0) :
    c.selection (scanPass clock gw) gw f = some d.id := by
  have hcandidate : (f.dustInspectionId.isNone && c.inLookback (scanPass clock gw) f) = true := by
    rw [hnone, hlook]
    rfl
  rw [selection, if_pos hcandidate]
  have hmem : d ∈ gw.dustInspection.rows.filter (c.inWindow f) :=
    List.mem_filter.mpr ⟨hd.mem, hd.inWindow⟩
  cases hkept : c.nearest (scanPass clock gw) gw.dustInspection.rows f with
  | none =>
    have hout := c.nearest_eq_none_iff.mp hkept d hd.mem
    rw [hd.inWindow] at hout
    contradiction
  | some e =>
    have he := c.isNearest_of_nearest hkept
    have hle := List.le_of_mem_argmin hmem hkept
    rw [Prod.Lex.toLex_le_toLex] at hle
    have hge := hd.le e he.mem he.inWindow
    have hplace : place gw.dustInspection.rows e = 0 := by
      rcases hle with hlt | ⟨-, hle⟩
      · have hlt' : distance f e < distance f d := hlt
        omega
      · have hle' : place gw.dustInspection.rows e ≤ place gw.dustInspection.rows d := hle
        omega
    rw [Option.map_some, id_eq_of_place_eq_zero hd.mem he.mem hfirst hplace]

theorem oneNearest_of_deterministic (h : c.Deterministic clock gw) :
    c.OneNearest clock gw := by
  intro f hf hnone hlook d d' hd hd'
  have hpaired (x : DustInspection) (hx : c.IsNearest gw.dustInspection.rows f x) :
      ∃ gw', SameContent gw gw' ∧ pairedTo (c.scanTick clock gw') f.id = some x.id := by
    obtain ⟨gw', hsame, hframes, hfirst⟩ := exists_scanned_first hx.mem
    refine ⟨gw', hsame, pairedTo_scanTick_iff.mpr ⟨f, hframes ▸ hf, rfl, ?_⟩⟩
    have hlook' : c.inLookback (scanPass clock gw') f = true := hlook
    rw [selection_scanned_first hnone hlook' (hx.perm hsame.dusts.symm) hfirst]
    rfl
  obtain ⟨gw₁, hsame₁, hpaired₁⟩ := hpaired d hd
  obtain ⟨gw₂, hsame₂, hpaired₂⟩ := hpaired d' hd'
  have heq := h gw₁ gw₂ hsame₁ hsame₂ f.id
  rw [hpaired₁, hpaired₂] at heq
  exact gw.dustInspection.toTable.eq_of_key_eq hd.mem hd'.mem (Option.some.inj heq)

/-- The pairing of a tick is the same for all orders of the rows exactly when
no candidate has two nearest measurements. -/
theorem deterministic_iff (c : FrameCorrelator) (clock : Nat → Timestamp) (gw : GatewayDb) :
    c.Deterministic clock gw ↔ c.OneNearest clock gw :=
  ⟨oneNearest_of_deterministic, deterministic_of_oneNearest⟩

end FrameCorrelator

/-- Two measurements with a frame halfway between them. -/
def early : DustInspection := { id := 1, receivedAt := 0 }

def late : DustInspection := { id := 2, receivedAt := 2000000 }

def between : CctvFrame := { id := 1, receivedAt := 1000000, amrId := "1", filePath := "" }

def halfway : GatewayDb :=
  ((GatewayDb.empty.insertDust early).insertDust late).insertFrame between

/-- Which of the two the frame is paired with depends on the scan. -/
theorem halfway_not_deterministic :
    ¬ ∀ gw, twoSeconds.Deterministic (fun _ => 1500000) gw := by
  intro h
  have hearly : twoSeconds.IsNearest halfway.dustInspection.rows between early :=
    ⟨by decide, by decide, by decide⟩
  have hlate : twoSeconds.IsNearest halfway.dustInspection.rows between late :=
    ⟨by decide, by decide, by decide⟩
  have hone := FrameCorrelator.oneNearest_of_deterministic (h halfway)
  have heq := hone between (by decide) rfl (by decide) early late hearly hlate
  exact absurd heq (by decide)

end DustMonitoring.Correlator
