import DustMonitoring.Correlator.Safety

/-!
# When the pairing does not depend on the schedule

Two schedules with the same history differ only in where the ticks stand
between the inserts.  A pairing is final, so a tick that sees a
measurement but not yet the nearest one settles the frame for good.
`pairedNearest_iff` says that this is the only way to miss the nearest
measurement, and `schedule_independence_iff` compares two schedules.
-/

namespace DustMonitoring.Correlator

open DustMonitoring.Lib DustMonitoring.Schema

/-- The event is an insert of one of the two listeners. -/
def Event.isInsert : Event → Bool
  | .insertDust _ | .insertFrame _ => true
  | .tick _ | .dequeue _ => false

/-- The inserts of a schedule, in order. -/
def history (es : List Event) : List Event := es.filter Event.isInsert

namespace FrameCorrelator

variable {c : FrameCorrelator}

/-! ## The history fixes what is paired -/

/-- The part of gateway_db that only the inserts write. -/
def inserted (gw : GatewayDb) :
    SerialTable DustInspection.id × Nat × List CctvFrame :=
  (gw.dustInspection, gw.cctvFrame.next, gw.cctvFrame.rows.map
    (fun f => { f with dustInspectionId := none, pairedAt := none }))

theorem inserted_step_of_not_isInsert {e : Event} (he : e.isInsert = false)
    (gw : GatewayDb) : inserted (c.step gw e) = inserted gw := by
  cases e with
  | insertDust row => contradiction
  | insertFrame row => contradiction
  | tick p =>
    show inserted (c.pairSql p gw) = inserted gw
    rw [pairSql, GatewayDb.foldl_enqueueCctvTransfer]
    refine Prod.ext rfl (Prod.ext rfl ?_)
    show ((gw.cctvFrame.rows.map _).map _) = gw.cctvFrame.rows.map _
    rw [List.map_map]
    apply List.map_congr_left
    intro f _
    simp only [Function.comp]
    split <;> rfl
  | dequeue k => rfl

theorem inserted_step_of_isInsert {e : Event} (he : e.isInsert = true)
    {gw gw' : GatewayDb} (h : inserted gw = inserted gw') :
    inserted (c.step gw e) = inserted (c.step gw' e) := by
  obtain ⟨hdust, hrest⟩ := Prod.mk.inj h
  obtain ⟨hnext, hframes⟩ := Prod.mk.inj hrest
  cases e with
  | insertDust row =>
    refine Prod.ext ?_ (Prod.ext hnext hframes)
    exact congrArg (fun t : SerialTable DustInspection.id =>
      t.append (fun n => { row with id := n }) (fun _ => rfl)) hdust
  | insertFrame row =>
    refine Prod.ext hdust (Prod.ext ?_ ?_)
    · show gw.cctvFrame.next + 1 = gw'.cctvFrame.next + 1
      rw [hnext]
    · show List.map _ (gw.cctvFrame.rows ++ [_]) =
        List.map _ (gw'.cctvFrame.rows ++ [_])
      rw [List.map_append, List.map_append, hframes, hnext]
  | tick p => contradiction
  | dequeue k => contradiction

private theorem inserted_run_history (es : List Event) {gw gw' : GatewayDb}
    (h : inserted gw = inserted gw') :
    inserted (run c.step gw es) = inserted (run c.step gw' (history es)) := by
  induction es generalizing gw gw' with
  | nil => exact h
  | cons e es ih =>
    cases he : e.isInsert with
    | true =>
      rw [history, List.filter_cons_of_pos he]
      exact ih (inserted_step_of_isInsert he h)
    | false =>
      rw [history, List.filter_cons_of_neg (by simp [he])]
      exact ih ((inserted_step_of_not_isInsert he gw).trans h)

/-- Schedules with one history leave the same measurements and, but for
the pairing, the same frames. -/
theorem inserted_eq_of_history_eq {es fs : List Event}
    (h : history es = history fs) :
    inserted (c.gatewayAfter es) = inserted (c.gatewayAfter fs) := by
  have hes := inserted_run_history (c := c) es (rfl : inserted GatewayDb.empty = _)
  have hfs := inserted_run_history (c := c) fs (rfl : inserted GatewayDb.empty = _)
  rw [gatewayAfter, gatewayAfter, hes, hfs, h]

theorem dustInspection_eq_of_history_eq {es fs : List Event}
    (h : history es = history fs) :
    (c.gatewayAfter es).dustInspection = (c.gatewayAfter fs).dustInspection :=
  (Prod.mk.inj (inserted_eq_of_history_eq h)).1

theorem exists_frame_of_history_eq {es fs : List Event}
    (h : history es = history fs) {f : CctvFrame}
    (hf : f ∈ (c.gatewayAfter es).cctvFrame.rows) :
    ∃ g ∈ (c.gatewayAfter fs).cctvFrame.rows,
      g.id = f.id ∧ g.receivedAt = f.receivedAt := by
  have hframes := (Prod.mk.inj (Prod.mk.inj (inserted_eq_of_history_eq (c := c) h)).2).2
  have hmem := List.mem_map_of_mem (f := fun f : CctvFrame =>
    { f with dustInspectionId := none, pairedAt := none }) hf
  rw [hframes] at hmem
  obtain ⟨g, hg, heq⟩ := List.mem_map.mp hmem
  rw [CctvFrame.mk.injEq] at heq
  exact ⟨g, hg, heq.1, heq.2.1⟩

/-! ## What stays along a run -/

theorem mem_dustInspection_step (e : Event) {gw : GatewayDb}
    {d : DustInspection} (hd : d ∈ gw.dustInspection.rows) :
    d ∈ (c.step gw e).dustInspection.rows := by
  cases e with
  | insertDust row => exact SerialTable.mem_append.mpr (Or.inl hd)
  | insertFrame row => exact hd
  | tick p =>
    show d ∈ (c.pairSql p gw).dustInspection.rows
    rw [dustInspection_pairSql]
    exact hd
  | dequeue k => exact hd

theorem mem_dustInspection_append {pre : List Event} (post : List Event)
    {d : DustInspection} (hd : d ∈ (c.gatewayAfter pre).dustInspection.rows) :
    d ∈ (c.gatewayAfter (pre ++ post)).dustInspection.rows := by
  have hstep : ∀ gw e, d ∈ gw.dustInspection.rows →
      d ∈ (c.step gw e).dustInspection.rows :=
    fun _ e h => mem_dustInspection_step e h
  rw [gatewayAfter, run_append]
  exact run_invariant hstep hd post

theorem evolves_append {pre : List Event} (post : List Event) {f : CctvFrame}
    (hf : f ∈ (c.gatewayAfter pre).cctvFrame.rows) :
    ∃ g ∈ (c.gatewayAfter (pre ++ post)).cctvFrame.rows, Evolves f g := by
  have hstep : ∀ gw e, (∃ g ∈ gw.cctvFrame.rows, Evolves f g) →
      ∃ g ∈ (c.step gw e).cctvFrame.rows, Evolves f g := by
    intro gw e h
    obtain ⟨g, hg, hfg⟩ := h
    obtain ⟨g', hg', hgg'⟩ := step_evolves (c := c) e hg
    exact ⟨g', hg', hfg.trans hgg'⟩
  rw [gatewayAfter, run_append]
  exact run_invariant hstep ⟨f, hf, Evolves.refl f⟩ post

/-- A pairing goes back to a tick that selected the frame. -/
theorem exists_pairing_tick {es : List Event} {k i : Nat}
    (h : pairedTo (c.gatewayAfter es) k = some i) :
    ∃ pre p post, es = pre ++ .tick p :: post ∧
      ∃ f ∈ (c.gatewayAfter pre).cctvFrame.rows, f.id = k ∧
        c.selection p (c.gatewayAfter pre) f = some i := by
  induction es using List.reverseRecOn with
  | nil => contradiction
  | append_singleton es e ih =>
    cases hpre : pairedTo (c.gatewayAfter es) k with
    | none =>
      rw [gatewayAfter_concat] at h
      obtain ⟨p, rfl, hf⟩ := step_pairs hpre h
      exact ⟨es, p, [], rfl, hf⟩
    | some j =>
      have hj := pairedTo_gatewayAfter_append [e] hpre
      rw [h, Option.some.injEq] at hj
      subst hj
      obtain ⟨pre, p, post, rfl, hf⟩ := ih hpre
      exact ⟨pre, p, post ++ [e], by simp, hf⟩

/-- The measurement that a frame is paired with is in the table. -/
theorem exists_dust_of_pairedTo {es : List Event} {k i : Nat}
    (h : pairedTo (c.gatewayAfter es) k = some i) :
    ∃ d ∈ (c.gatewayAfter es).dustInspection.rows, d.id = i := by
  obtain ⟨pre, p, post, rfl, f, -, -, hsel⟩ := exists_pairing_tick h
  obtain ⟨-, -, d, hid, hnear⟩ := c.selection_eq_some hsel
  exact ⟨d, mem_dustInspection_append _ hnear.mem, hid⟩

/-! ## Nearest measurements -/

theorem inWindow_congr {f g : CctvFrame} (h : g.receivedAt = f.receivedAt)
    (d : DustInspection) : c.inWindow g d = c.inWindow f d := by
  rw [inWindow, inWindow, h]

theorem IsNearest.congr {dusts : List DustInspection} {f g : CctvFrame}
    {d : DustInspection} (hd : c.IsNearest dusts f d)
    (h : g.receivedAt = f.receivedAt) : c.IsNearest dusts g d where
  mem := hd.mem
  inWindow := by
    rw [inWindow_congr h]
    exact hd.inWindow
  le := by
    intro d' hd' hw
    rw [inWindow_congr h] at hw
    rw [distance, distance, h]
    exact hd.le d' hd' hw

/-- The nearest of the measurements that are there already is the nearest
of all, once the nearest of all is there. -/
theorem IsNearest.of_seen {seen all : List DustInspection} {f : CctvFrame}
    {d d' : DustInspection} (hd : c.IsNearest seen f d) (hmem : d ∈ all)
    (hseen : d' ∈ seen) (hd' : c.IsNearest all f d') :
    c.IsNearest all f d where
  mem := hmem
  inWindow := hd.inWindow
  le := by
    intro x hx hw
    calc distance f d ≤ distance f d' := hd.le d' hseen hd'.inWindow
      _ ≤ distance f x := hd'.le x hx hw

/-! ## One schedule -/

/-- Every frame is paired with a nearest measurement, or with none when it
lies in no window. -/
def PairedNearest (c : FrameCorrelator) (gw : GatewayDb) : Prop :=
  ∀ f ∈ gw.cctvFrame.rows,
    match f.dustInspectionId with
    | some i => ∃ d, d.id = i ∧ c.IsNearest gw.dustInspection.rows f d
    | none => ∀ d ∈ gw.dustInspection.rows, c.inWindow f d = false

/-- The schedule ends with a tick, and every frame is within its lookback. -/
def EndsInTick (c : FrameCorrelator) (es : List Event) : Prop :=
  ∃ pre p, es = pre ++ [.tick p] ∧
    ∀ f ∈ (c.gatewayAfter pre).cctvFrame.rows, c.inLookback p f = true

/-- Every tick that finds a frame within its lookback and in the window of
a measurement finds a nearest measurement of the whole schedule too. -/
def NearestSeen (c : FrameCorrelator) (es : List Event) : Prop :=
  ∀ pre p post, es = pre ++ .tick p :: post →
    ∀ f ∈ (c.gatewayAfter pre).cctvFrame.rows, c.inLookback p f = true →
      (∃ d ∈ (c.gatewayAfter pre).dustInspection.rows, c.inWindow f d = true) →
      ∃ d ∈ (c.gatewayAfter pre).dustInspection.rows,
        c.IsNearest (c.gatewayAfter es).dustInspection.rows f d

theorem nearestSeen_of_pairedNearest {es : List Event}
    (h : PairedNearest c (c.gatewayAfter es)) : NearestSeen c es := by
  intro pre p post hes f hf hlook hwin
  obtain ⟨i, hi⟩ : ∃ i, pairedTo (c.gatewayAfter (pre ++ [.tick p])) f.id = some i := by
    cases hpaired : f.dustInspectionId with
    | some i =>
      refine ⟨i, pairedTo_gatewayAfter_append [.tick p] ?_⟩
      rw [pairedTo_of_mem hf, hpaired]
    | none =>
      cases hsel : c.selection p (c.gatewayAfter pre) f with
      | some i =>
        refine ⟨i, ?_⟩
        rw [gatewayAfter_concat]
        exact pairedTo_tick_of_selection hf hsel
      | none =>
        obtain ⟨d, hd, hw⟩ := hwin
        rw [c.inWindow_of_selection_eq_none hpaired hlook hsel d hd] at hw
        contradiction
  -- the measurement was there at the tick, since the tick inserts none
  obtain ⟨d, hd, hid⟩ := exists_dust_of_pairedTo hi
  rw [gatewayAfter_concat] at hd
  have hseen : d ∈ (c.gatewayAfter pre).dustInspection.rows := by
    have hdust := c.dustInspection_pairSql p (c.gatewayAfter pre)
    rw [← hdust]
    exact hd
  have hsplit : es = (pre ++ [.tick p]) ++ post := by rw [hes]; simp
  have hfinal := pairedTo_gatewayAfter_append post hi
  rw [← hsplit] at hfinal
  obtain ⟨g, hg, hgid, hgi⟩ := pairedTo_eq_some_iff.mp hfinal
  have hnear := h g hg
  rw [hgi] at hnear
  obtain ⟨d', hd'id, hd'⟩ := hnear
  have hmem := mem_dustInspection_append (.tick p :: post) hseen
  rw [← hes] at hmem
  have heq : d' = d :=
    (c.gatewayAfter es).dustInspection.eq_of_key_eq hd'.mem hmem (hd'id.trans hid.symm)
  obtain ⟨f', hf', hev⟩ := evolves_append (.tick p :: post) hf
  rw [← hes] at hf'
  have hgf : g = f' :=
    (c.gatewayAfter es).cctvFrame.eq_of_key_eq hg hf' (hgid.trans hev.id.symm)
  refine ⟨d, hseen, ?_⟩
  rw [heq, hgf] at hd'
  exact hd'.congr hev.receivedAt.symm

theorem pairedNearest_of_nearestSeen {es : List Event} (hlast : EndsInTick c es)
    (h : NearestSeen c es) : PairedNearest c (c.gatewayAfter es) := by
  intro f hf
  cases hpaired : f.dustInspectionId with
  | some i =>
    have hto : pairedTo (c.gatewayAfter es) f.id = some i := by
      rw [pairedTo_of_mem hf, hpaired]
    obtain ⟨pre, p, post, hes, f', hf', hid, hsel⟩ := exists_pairing_tick hto
    obtain ⟨-, hlook, d, hdid, hd⟩ := c.selection_eq_some hsel
    obtain ⟨d', hseen, hd'⟩ := h pre p post hes f' hf' hlook ⟨d, hd.mem, hd.inWindow⟩
    have hmem := mem_dustInspection_append (.tick p :: post) hd.mem
    obtain ⟨g, hg, hev⟩ := evolves_append (.tick p :: post) hf'
    rw [← hes] at hmem hg
    have hgf : g = f :=
      (c.gatewayAfter es).cctvFrame.eq_of_key_eq hg hf (hev.id.trans hid)
    refine ⟨d, hdid, (hd.of_seen hmem hseen hd').congr ?_⟩
    rw [← hgf, hev.receivedAt]
  | none =>
    obtain ⟨pre, p, rfl, hlook⟩ := hlast
    rw [gatewayAfter_concat] at hf
    obtain ⟨f', hf', rfl⟩ := c.mem_cctvFrame_pairSql.mp hf
    obtain ⟨hnone, hsel⟩ := selection_eq_none_of_pairFrame hpaired
    show ∀ d ∈ (c.gatewayAfter (pre ++ [.tick p])).dustInspection.rows, _
    intro d hd
    rw [gatewayAfter_concat] at hd
    have hseen : d ∈ (c.gatewayAfter pre).dustInspection.rows := by
      rw [← c.dustInspection_pairSql p (c.gatewayAfter pre)]
      exact hd
    rw [inWindow_congr (evolves_pairFrame p f').receivedAt]
    exact c.inWindow_of_selection_eq_none hnone (hlook f' hf') hsel d hseen

/-- A schedule pairs every frame with its nearest measurement exactly if
every tick that can pair the frame finds that measurement. -/
theorem pairedNearest_iff {es : List Event} (hlast : EndsInTick c es) :
    PairedNearest c (c.gatewayAfter es) ↔ NearestSeen c es :=
  ⟨nearestSeen_of_pairedNearest, pairedNearest_of_nearestSeen hlast⟩

/-! ## Two schedules -/

/-- No two measurements are equally near to a frame that lies in the
windows of both. -/
def NoTies (c : FrameCorrelator) (gw : GatewayDb) : Prop :=
  ∀ f ∈ gw.cctvFrame.rows,
    ∀ d ∈ gw.dustInspection.rows, ∀ d' ∈ gw.dustInspection.rows,
      c.inWindow f d = true → c.inWindow f d' = true →
      distance f d = distance f d' → d = d'

theorem IsNearest.unique {gw : GatewayDb} (hties : NoTies c gw) {f : CctvFrame}
    (hf : f ∈ gw.cctvFrame.rows) {d d' : DustInspection}
    (hd : c.IsNearest gw.dustInspection.rows f d)
    (hd' : c.IsNearest gw.dustInspection.rows f d') : d = d' := by
  have hle := hd.le d' hd'.mem hd'.inWindow
  have hge := hd'.le d hd.mem hd.inWindow
  exact hties f hf d hd.mem d' hd'.mem hd.inWindow hd'.inWindow (by omega)

private theorem pairedTo_of_pairedNearest {es fs : List Event}
    (hhist : history es = history fs) (hties : NoTies c (c.gatewayAfter es))
    (hes : PairedNearest c (c.gatewayAfter es))
    (hfs : PairedNearest c (c.gatewayAfter fs)) {k i : Nat}
    (h : pairedTo (c.gatewayAfter fs) k = some i) :
    pairedTo (c.gatewayAfter es) k = some i := by
  obtain ⟨g, hg, rfl, hgi⟩ := pairedTo_eq_some_iff.mp h
  obtain ⟨f, hf, hid, hat⟩ := exists_frame_of_history_eq hhist.symm hg
  have hnear := hfs g hg
  rw [hgi] at hnear
  obtain ⟨d, rfl, hd⟩ := hnear
  rw [← dustInspection_eq_of_history_eq hhist] at hd
  have hdf := hd.congr hat
  have hpaired := hes f hf
  rw [← hid, pairedTo_of_mem hf]
  cases hfi : f.dustInspectionId with
  | none =>
    rw [hfi] at hpaired
    have hout := hpaired d hdf.mem
    rw [hdf.inWindow] at hout
    contradiction
  | some j =>
    rw [hfi] at hpaired
    obtain ⟨d', rfl, hd'⟩ := hpaired
    rw [IsNearest.unique hties hf hd' hdf]

private theorem noTies_of_history_eq {es fs : List Event}
    (hhist : history es = history fs) (hties : NoTies c (c.gatewayAfter es)) :
    NoTies c (c.gatewayAfter fs) := by
  intro g hg d hd d' hd' hw hw' hdist
  obtain ⟨f, hf, -, hat⟩ := exists_frame_of_history_eq hhist.symm hg
  rw [← dustInspection_eq_of_history_eq hhist] at hd hd'
  rw [← inWindow_congr hat] at hw hw'
  rw [distance, distance, ← hat] at hdist
  exact hties f hf d hd d' hd' hw hw' hdist

/-- Two schedules of one history, both ended by a tick, pair every frame
with its nearest measurement, and so pair alike, exactly if in both of them
every tick that can pair a frame finds its nearest measurement. -/
theorem schedule_independence_iff (c : FrameCorrelator) (es fs : List Event)
    (hhist : history es = history fs) (hes : EndsInTick c es)
    (hfs : EndsInTick c fs) (hties : NoTies c (c.gatewayAfter es)) :
    ((∀ k, pairedTo (c.gatewayAfter es) k = pairedTo (c.gatewayAfter fs) k) ∧
      PairedNearest c (c.gatewayAfter es) ∧
      PairedNearest c (c.gatewayAfter fs)) ↔
    NearestSeen c es ∧ NearestSeen c fs := by
  rw [pairedNearest_iff hes, pairedNearest_iff hfs]
  refine ⟨And.right, fun h => ⟨fun k => ?_, h⟩⟩
  have hnes := pairedNearest_of_nearestSeen hes h.1
  have hnfs := pairedNearest_of_nearestSeen hfs h.2
  apply Option.ext
  intro i
  constructor
  · exact pairedTo_of_pairedNearest hhist.symm
      (noTies_of_history_eq hhist hties) hnfs hnes
  · exact pairedTo_of_pairedNearest hhist hties hnes hnfs

end FrameCorrelator

/-! ## A measurement that comes late -/

/-- A correlator with windows of two seconds and a lookback of ten
minutes. -/
def twoSeconds : FrameCorrelator where
  before := 2000000
  after := 2000000
  lookback := 600000000
  before_nonneg := by decide
  after_nonneg := by decide
  lookback_pos := by decide

/-- A pass at the time. -/
def passAt (now : Timestamp) : Pass := ⟨fun _ => now, fun _ d => d.id⟩

/-- A tick stands between a frame and a measurement that is 0.8 seconds
away from it, and finds one that is a whole second away. -/
def earlyTick : List Event :=
  [.insertDust { id := 0, receivedAt := 0 },
    .insertFrame { id := 0, receivedAt := 1000000, amrId := "1", filePath := "" },
    .tick (passAt 1500000),
    .insertDust { id := 0, receivedAt := 1800000 },
    .tick (passAt 2000000)]

/-- The same inserts with one tick at the end. -/
def lateTick : List Event :=
  [.insertDust { id := 0, receivedAt := 0 },
    .insertFrame { id := 0, receivedAt := 1000000, amrId := "1", filePath := "" },
    .insertDust { id := 0, receivedAt := 1800000 },
    .tick (passAt 2000000)]

theorem endsInTick_earlyTick : twoSeconds.EndsInTick earlyTick :=
  ⟨earlyTick.take 4, passAt 2000000, rfl, by decide⟩

theorem endsInTick_lateTick : twoSeconds.EndsInTick lateTick :=
  ⟨lateTick.take 3, passAt 2000000, rfl, by decide⟩

theorem noTies_lateTick :
    twoSeconds.NoTies (twoSeconds.gatewayAfter lateTick) := by
  unfold FrameCorrelator.NoTies
  decide

/-- The two schedules pair the one frame differently. -/
theorem earlyTick_ne_lateTick :
    (history earlyTick = history lateTick ∧
      twoSeconds.EndsInTick earlyTick ∧ twoSeconds.EndsInTick lateTick ∧
      twoSeconds.NoTies (twoSeconds.gatewayAfter earlyTick)) ∧
    ¬ ((∀ k, pairedTo (twoSeconds.gatewayAfter earlyTick) k =
        pairedTo (twoSeconds.gatewayAfter lateTick) k) ∧
      twoSeconds.PairedNearest (twoSeconds.gatewayAfter earlyTick) ∧
      twoSeconds.PairedNearest (twoSeconds.gatewayAfter lateTick)) := by
  refine ⟨⟨rfl, endsInTick_earlyTick, endsInTick_lateTick, ?_⟩, ?_⟩
  · unfold FrameCorrelator.NoTies
    decide
  · intro h
    have hfirst := h.1 1
    revert hfirst
    decide

/-- The same inserts with a tick before the frame and two at the end. -/
def manyTicks : List Event :=
  [.insertDust { id := 0, receivedAt := 0 },
    .tick (passAt 500000),
    .insertFrame { id := 0, receivedAt := 1000000, amrId := "1", filePath := "" },
    .insertDust { id := 0, receivedAt := 1800000 },
    .tick (passAt 1900000),
    .tick (passAt 2000000)]

theorem endsInTick_manyTicks : twoSeconds.EndsInTick manyTicks :=
  ⟨manyTicks.take 5, passAt 2000000, rfl, by decide⟩

/-- Every frame is paired, with a measurement that none is nearer than. -/
theorem nearestSeen_of_paired {es : List Event}
    (h : ∀ f ∈ (twoSeconds.gatewayAfter es).cctvFrame.rows,
      ∃ d ∈ (twoSeconds.gatewayAfter es).dustInspection.rows,
        f.dustInspectionId = some d.id ∧ twoSeconds.inWindow f d = true ∧
          ∀ x ∈ (twoSeconds.gatewayAfter es).dustInspection.rows,
            twoSeconds.inWindow f x = true → distance f d ≤ distance f x) :
    twoSeconds.NearestSeen es := by
  apply FrameCorrelator.nearestSeen_of_pairedNearest
  intro f hf
  obtain ⟨d, hd, hid, hwindow, hle⟩ := h f hf
  rw [hid]
  exact ⟨d, rfl, hd, hwindow, hle⟩

/-- Behind the second measurement there may be one tick or two, and others
before the frame. -/
theorem schedule_independence_lateTick :
    (∀ k, pairedTo (twoSeconds.gatewayAfter lateTick) k =
        pairedTo (twoSeconds.gatewayAfter manyTicks) k) ∧
      twoSeconds.PairedNearest (twoSeconds.gatewayAfter lateTick) ∧
      twoSeconds.PairedNearest (twoSeconds.gatewayAfter manyTicks) :=
  (FrameCorrelator.schedule_independence_iff twoSeconds lateTick manyTicks rfl
    endsInTick_lateTick endsInTick_manyTicks noTies_lateTick).mpr
      ⟨nearestSeen_of_paired (by decide), nearestSeen_of_paired (by decide)⟩

end DustMonitoring.Correlator
