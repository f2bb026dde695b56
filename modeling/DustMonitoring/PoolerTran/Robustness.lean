import DustMonitoring.PoolerTran.Conservation

/-!
# Whatever the server answers

The body of an answer is an arbitrary JSON value.  Most malformed values in
it count as missing, but four things escape: a score of a single object is
passed on as it is, an integer may be too large for `float(..)`, a path may
be no text, and reading it may raise something else than an `OSError`.

Main results:

* `yieldsScores_iff` -- the bodies that two scores are taken from;
* `exists_encodeB64_iff` -- the bodies whose image is read or passed over;
* `absorbs_iff` -- a batch takes its body exactly when both hold.
-/

namespace DustMonitoring.PoolerTran

open DustMonitoring.Lib DustMonitoring.Schema

/-! ## What a body must be -/

/-- A number or `None`. -/
def NumberOrNone : Json → Prop
  | .null | .bool _ | .int _ | .float _ => True
  | .str _ | .arr _ | .obj _ => False

instance : DecidablePred NumberOrNone
  | .null | .bool _ | .int _ | .float _ => isTrue trivial
  | .str _ | .arr _ | .obj _ => isFalse id

/-- The value is no integer beyond the doubles. -/
def InDoubleRange : Json → Prop
  | .int n => (Double.ofInt n).isSome
  | _ => True

instance : DecidablePred InDoubleRange
  | .int n => inferInstanceAs (Decidable ((Double.ofInt n).isSome = true))
  | .null | .bool _ | .float _ | .str _ | .arr _ | .obj _ => isTrue trivial

/-- What an element of a list has in the place of the score. -/
def scoreField : Json → Json
  | .arr (score :: _) => score
  | .obj fields => Json.get fields "score"
  | elem => elem

/-- A list has no integer beyond the doubles for a score, and the score of a
single object is a number if there is one. -/
def ScoresFit : Json → Prop
  | .arr (static :: dynamic :: _) =>
    InDoubleRange (scoreField static) ∧ InDoubleRange (scoreField dynamic)
  | .arr [elem] => InDoubleRange (scoreField elem)
  | .obj fields => NumberOrNone (Json.get fields "score")
  | _ => True

instance : DecidablePred ScoresFit
  | .arr (static :: dynamic :: _) => inferInstanceAs
      (Decidable (InDoubleRange (scoreField static) ∧ InDoubleRange (scoreField dynamic)))
  | .arr [elem] => inferInstanceAs (Decidable (InDoubleRange (scoreField elem)))
  | .obj fields => inferInstanceAs (Decidable (NumberOrNone (Json.get fields "score")))
  | .arr [] | .null | .bool _ | .int _ | .float _ | .str _ => isTrue trivial

/-- The fields that may hold the path of the static image. -/
def pathFields (fields : List (String × Json)) : List Json :=
  [Json.get fields "path1", Json.get fields "image_path", Json.get fields "file_path"]

/-- Where a body may have the path of the static image, in the order in which
the places are tried. -/
def pathPlaces : Json → List Json
  | .arr (.arr (_ :: path :: _) :: _) => [path]
  | .arr (.obj fields :: _) | .obj fields => pathFields fields
  | _ => []

/-- The value is a text, and reading the file under it raises nothing but an
`OSError`. -/
def Readable (readBytes : String → Except ReadError (List UInt8)) : Json → Prop
  | .str path => ∀ repr, readBytes path ≠ .error (.other repr)
  | _ => False

/-- The first path that is not empty, if there is one, is readable. -/
def ImageFits (readBytes : String → Except ReadError (List UInt8)) (body : Json) : Prop :=
  ∀ path, (pathPlaces body).find? Json.truthy = some path → Readable readBytes path

/-! ## The scores -/

/-- `_extract_dual` returns a pair of numbers or `None`. -/
def YieldsScores (floatOfStr : String → Option Double) (body : Json) : Prop :=
  ∃ s d, extractDual floatOfStr body = .ok (s, d) ∧ NumberOrNone s ∧ NumberOrNone d

section Scores

variable (floatOfStr : String → Option Double)

theorem numberOrNone_ofScore (score : Option Double) : NumberOrNone (ofScore score) := by
  cases score with
  | none => trivial
  | some d => trivial

theorem exists_toFloat_iff (value : Json) :
    (∃ d, toFloat floatOfStr value = .ok d) ↔ InDoubleRange value := by
  cases value with
  | int n =>
    unfold toFloat InDoubleRange
    dsimp only
    cases Double.ofInt n with
    | none =>
      refine iff_of_false ?_ Bool.false_ne_true
      rintro ⟨d, h⟩
      cases h
    | some d => exact iff_of_true ⟨some d, rfl⟩ rfl
  | null => exact iff_of_true ⟨_, rfl⟩ trivial
  | bool b => exact iff_of_true ⟨_, rfl⟩ trivial
  | float d => exact iff_of_true ⟨_, rfl⟩ trivial
  | str s => exact iff_of_true ⟨_, rfl⟩ trivial
  | arr items => exact iff_of_true ⟨_, rfl⟩ trivial
  | obj fields => exact iff_of_true ⟨_, rfl⟩ trivial

theorem oneResult_eq (elem : Json) :
    oneResult floatOfStr elem = toFloat floatOfStr (scoreField elem) := by
  cases elem with
  | arr items =>
    cases items with
    | nil => rfl
    | cons score _ => rfl
  | null | bool | int | float | str | obj => rfl

theorem exists_oneResult_iff (elem : Json) :
    (∃ d, oneResult floatOfStr elem = .ok d) ↔ InDoubleRange (scoreField elem) := by
  rw [oneResult_eq]
  exact exists_toFloat_iff floatOfStr (scoreField elem)

/-- Two scores of a list are numbers if both can be read at all. -/
theorem yieldsScores_pair_iff (static dynamic : Json) (rest : List Json) :
    YieldsScores floatOfStr (.arr (static :: dynamic :: rest)) ↔
      InDoubleRange (scoreField static) ∧ InDoubleRange (scoreField dynamic) := by
  rw [← exists_oneResult_iff floatOfStr static, ← exists_oneResult_iff floatOfStr dynamic]
  unfold YieldsScores extractDual
  simp only [bind_eq_ok]
  constructor
  · rintro ⟨_, _, ⟨s, hs, d, hd, -⟩, -⟩
    exact ⟨⟨s, hs⟩, d, hd⟩
  · rintro ⟨⟨s, hs⟩, d, hd⟩
    exact ⟨ofScore s, ofScore d, ⟨s, hs, d, hd, rfl⟩, numberOrNone_ofScore s,
      numberOrNone_ofScore d⟩

theorem yieldsScores_single_iff (elem : Json) :
    YieldsScores floatOfStr (.arr [elem]) ↔ InDoubleRange (scoreField elem) := by
  rw [← exists_oneResult_iff floatOfStr elem]
  unfold YieldsScores extractDual
  simp only [bind_eq_ok]
  constructor
  · rintro ⟨_, _, ⟨s, hs, -⟩, -⟩
    exact ⟨s, hs⟩
  · rintro ⟨s, hs⟩
    exact ⟨ofScore s, ofScore s, ⟨s, hs, rfl⟩, numberOrNone_ofScore s, numberOrNone_ofScore s⟩

/-- The score of a single object is not converted. -/
theorem yieldsScores_obj_iff (fields : List (String × Json)) :
    YieldsScores floatOfStr (.obj fields) ↔ NumberOrNone (Json.get fields "score") := by
  constructor
  · rintro ⟨s, d, h, hs, -⟩
    obtain ⟨rfl, -⟩ := Prod.mk.inj (Except.ok.inj h)
    exact hs
  · intro h
    exact ⟨_, _, rfl, h, h⟩

/-- The bodies that two scores are taken from. -/
theorem yieldsScores_iff (body : Json) :
    YieldsScores floatOfStr body ↔ ScoresFit body := by
  cases body with
  | arr items =>
    rcases items with _ | ⟨static, _ | ⟨dynamic, rest⟩⟩
    · exact iff_of_true ⟨_, _, rfl, trivial, trivial⟩ trivial
    · exact yieldsScores_single_iff floatOfStr static
    · exact yieldsScores_pair_iff floatOfStr static dynamic rest
  | obj fields => exact yieldsScores_obj_iff floatOfStr fields
  | null | bool | int | float | str => exact iff_of_true ⟨_, _, rfl, trivial, trivial⟩ trivial

example : ScoresFit (.arr [.arr [.str "high"], .null]) ∧
    ¬ ScoresFit (.arr [.arr [.int (10 ^ 400)], .null]) ∧
    ¬ ScoresFit (.obj [("score", .str "high")]) := by decide +kernel

/-- A number or `None` can be graded. -/
theorem exists_classify {value : Json} (h : NumberOrNone value) (threshold : Option Double) :
    ∃ result, classify value threshold = .ok result := by
  cases value with
  | null => exact ⟨_, rfl⟩
  | bool b =>
    cases threshold with
    | none => exact ⟨_, rfl⟩
    | some t => exact ⟨_, rfl⟩
  | int n =>
    cases threshold with
    | none => exact ⟨_, rfl⟩
    | some t => exact ⟨_, rfl⟩
  | float d =>
    cases threshold with
    | none => exact ⟨_, rfl⟩
    | some t => exact ⟨_, rfl⟩
  | str s => cases h
  | arr items => cases h
  | obj fields => cases h

end Scores

/-! ## The image -/

theorem or_of_truthy {a : Json} (h : a.truthy = true) (b : Json) : a.or b = a :=
  if_pos h

theorem or_of_not_truthy {a : Json} (h : ¬ a.truthy = true) (b : Json) : a.or b = b :=
  if_neg h

/-- `a or b or c` is the first of the three that counts as true, if any does. -/
theorem or_or_of_find? {a b c path : Json}
    (h : [a, b, c].find? Json.truthy = some path) : (a.or b).or c = path := by
  by_cases ha : a.truthy = true
  · rw [List.find?_cons_of_pos ha] at h
    rw [or_of_truthy ha, or_of_truthy ha]
    exact Option.some.inj h
  · rw [List.find?_cons_of_neg ha] at h
    rw [or_of_not_truthy ha]
    by_cases hb : b.truthy = true
    · rw [List.find?_cons_of_pos hb] at h
      rw [or_of_truthy hb]
      exact Option.some.inj h
    · rw [List.find?_cons_of_neg hb] at h
      rw [or_of_not_truthy hb]
      exact List.mem_singleton.mp (List.mem_of_find?_eq_some h) |>.symm

theorem not_truthy_or_or {a b c : Json} (h : [a, b, c].find? Json.truthy = none) :
    ¬ ((a.or b).or c).truthy = true := by
  rw [List.find?_eq_none] at h
  have ha : ¬ a.truthy = true := h a (by simp)
  have hb : ¬ b.truthy = true := h b (by simp)
  rw [or_of_not_truthy ha, or_of_not_truthy hb]
  exact h c (by simp)

/-- `_static_p1` tries the places in their order. -/
theorem staticP1_cases (body : Json) :
    (∃ path, pathPlaces body = [path] ∧ staticP1 body = path) ∨
    (∃ a b c, pathPlaces body = [a, b, c] ∧ staticP1 body = (a.or b).or c) ∨
    (pathPlaces body = [] ∧ staticP1 body = .null) := by
  cases body with
  | arr items =>
    cases items with
    | nil => exact Or.inr (Or.inr ⟨rfl, rfl⟩)
    | cons first rest =>
      cases first with
      | arr inner =>
        rcases inner with _ | ⟨score, _ | ⟨path, inner⟩⟩
        · exact Or.inr (Or.inr ⟨rfl, rfl⟩)
        · exact Or.inr (Or.inr ⟨rfl, rfl⟩)
        · exact Or.inl ⟨path, rfl, rfl⟩
      | obj fields => exact Or.inr (Or.inl ⟨_, _, _, rfl, rfl⟩)
      | null | bool | int | float | str => exact Or.inr (Or.inr ⟨rfl, rfl⟩)
  | obj fields => exact Or.inr (Or.inl ⟨_, _, _, rfl, rfl⟩)
  | null | bool | int | float | str => exact Or.inr (Or.inr ⟨rfl, rfl⟩)

theorem staticP1_of_find? {body path : Json}
    (h : (pathPlaces body).find? Json.truthy = some path) : staticP1 body = path := by
  rcases staticP1_cases body with ⟨p, hplaces, hp1⟩ | ⟨a, b, c, hplaces, hp1⟩ | ⟨hplaces, -⟩
  all_goals rw [hplaces] at h
  · rw [hp1]
    exact (List.mem_singleton.mp (List.mem_of_find?_eq_some h)).symm
  · rw [hp1]
    exact or_or_of_find? h
  · cases h

theorem not_truthy_staticP1 {body : Json}
    (h : (pathPlaces body).find? Json.truthy = none) : ¬ (staticP1 body).truthy = true := by
  rcases staticP1_cases body with ⟨p, hplaces, hp1⟩ | ⟨a, b, c, hplaces, hp1⟩ | ⟨hplaces, hp1⟩
  all_goals rw [hplaces] at h
  · rw [hp1]
    exact List.find?_eq_none.mp h p (List.mem_singleton_self p)
  · rw [hp1]
    exact not_truthy_or_or h
  · rw [hp1]
    exact Bool.false_ne_true

section Image

variable (readBytes : String → Except ReadError (List UInt8))

theorem exists_encodeB64_iff_readable {path : Json} (h : path.truthy = true) :
    (∃ image, encodeB64 readBytes path = .ok image) ↔ Readable readBytes path := by
  unfold encodeB64
  rw [if_pos h]
  cases path with
  | str s =>
    show _ ↔ ∀ repr, readBytes s ≠ .error (.other repr)
    dsimp only
    cases readBytes s with
    | ok data => exact iff_of_true ⟨_, rfl⟩ (fun repr heq => by cases heq)
    | error exc =>
      cases exc with
      | osError => exact iff_of_true ⟨_, rfl⟩ (fun repr heq => by cases heq)
      | other repr =>
        refine iff_of_false ?_ (fun hall => hall repr rfl)
        rintro ⟨image, heq⟩
        cases heq
  | null | bool | int | float | arr | obj =>
    refine iff_of_false ?_ id
    rintro ⟨image, heq⟩
    cases heq

/-- The bodies whose image is read or passed over. -/
theorem exists_encodeB64_iff (body : Json) :
    (∃ image, encodeB64 readBytes (staticP1 body) = .ok image) ↔ ImageFits readBytes body := by
  unfold ImageFits
  cases hfind : (pathPlaces body).find? Json.truthy with
  | none =>
    refine iff_of_true ⟨none, if_neg (not_truthy_staticP1 hfind)⟩ ?_
    intro path heq
    cases heq
  | some path =>
    rw [staticP1_of_find? hfind,
      exists_encodeB64_iff_readable readBytes (List.find?_some hfind)]
    constructor
    · intro h path' heq
      obtain rfl := Option.some.inj heq
      exact h
    · intro h
      exact h path rfl

end Image

/-! ## The batch -/

/-- The rows of a batch that are sent. -/
def liveRows (rows : List QueueRow) : List QueueRow := rows.filter fun r => !r.isOrphan

/-- The batch is recorded with the body, its rows are deleted, and no row is
counted as failed or as a dead letter. -/
structure SentWhole (rows : List QueueRow) (body : Json) (w w' : World) : Prop where
  recorded : ∃ row : DecisionRecord, row.resultPayload = body ∧
    w'.decision = (w.decision.insertDecision row).1
  deleted : ∀ r ∈ rows, ¬ Queued w' r.frameId
  failed : w'.poller.stats.failed = w.poller.stats.failed
  deadLettered : w'.poller.stats.deadLettered = w.poller.stats.deadLettered

/-- Two scores come out of the body, and the batch is sent. -/
def Absorbs (P : Poller) (calls : Calls) (amrId : String) (waypointId : Int)
    (rows : List QueueRow) (w : World) (body : Json) : Prop :=
  YieldsScores calls.floatOfStr body ∧
    SentWhole rows body w (processBatchRows P calls amrId waypointId rows w)

/-- Each failed row is counted once, as failed or as a dead letter. -/
theorem failures_foldl_handleFailure (P : Poller) (calls : Calls) (exc : String)
    (rows : List QueueRow) (w : World) :
    (rows.foldl (handleFailure P calls exc) w).poller.stats.failed +
        (rows.foldl (handleFailure P calls exc) w).poller.stats.deadLettered =
      w.poller.stats.failed + w.poller.stats.deadLettered + rows.length := by
  induction rows generalizing w with
  | nil => rfl
  | cons r rs ih =>
    have hstep : (handleFailure P calls exc w r).poller.stats.failed +
        (handleFailure P calls exc w r).poller.stats.deadLettered =
        w.poller.stats.failed + w.poller.stats.deadLettered + 1 := by
      rcases handleFailure_cases P calls exc w r with ⟨-, -, h⟩ | ⟨-, -, h⟩ | ⟨-, -, h⟩
      all_goals
        rw [h]
        simp only [deleteRow, bumpRow]
        omega
    rw [List.foldl_cons, ih, hstep, List.length_cons]
    omega

/-- Purging the orphans deletes them, and changes neither decision_db nor the
counters of failures. -/
theorem foldl_purgeOrphan (rows : List QueueRow) (w : World) :
    (rows.foldl purgeOrphan w).decision = w.decision ∧
      (rows.foldl purgeOrphan w).poller.stats.failed = w.poller.stats.failed ∧
      (rows.foldl purgeOrphan w).poller.stats.deadLettered =
        w.poller.stats.deadLettered :=
  ⟨run_eq purgeOrphan World.decision (fun _ _ => rfl) w rows,
    run_eq purgeOrphan (fun w => w.poller.stats.failed) (fun _ _ => rfl) w rows,
    run_eq purgeOrphan (fun w => w.poller.stats.deadLettered) (fun _ _ => rfl) w rows⟩

section Batch

variable {calls : Calls} {amrId : String} {waypointId : Int} {first : QueueRow}
  {rest : List QueueRow} {body : Json}

/-- With two scores the decision only depends on the image. -/
theorem exists_decisionRow_iff {th : String → Option Double}
    (hth : calls.fetchThresholds = .ok th) (hscores : YieldsScores calls.floatOfStr body) :
    (∃ row, decisionRow calls amrId waypointId first rest body = .ok row) ↔
      ImageFits calls.readBytes body := by
  obtain ⟨static, dynamic, hdual, hstatic, hdynamic⟩ := hscores
  obtain ⟨sensorRes, hsensor⟩ := exists_classify
    (numberOrNone_ofScore (representativeRow first rest).dustValue) (th "dust")
  obtain ⟨anomalyRes, hanomaly⟩ := exists_classify hstatic (th "static")
  obtain ⟨objectRes, hobject⟩ := exists_classify hdynamic (th "dynamic")
  rw [← exists_encodeB64_iff]
  constructor
  · rintro ⟨row, h⟩
    exact ⟨row.imageB64, (of_decisionRow h).1⟩
  · rintro ⟨image, himage⟩
    exact ⟨_, bind_eq_ok.mpr ⟨th, hth,
      bind_eq_ok.mpr ⟨(static, dynamic), hdual,
      bind_eq_ok.mpr ⟨sensorRes, hsensor,
      bind_eq_ok.mpr ⟨anomalyRes, hanomaly,
      bind_eq_ok.mpr ⟨objectRes, hobject,
      bind_eq_ok.mpr ⟨image, himage, rfl⟩⟩⟩⟩⟩⟩⟩

/-- The live rows are sent after the orphans are purged. -/
theorem processBatchRows_eq (P : Poller) {rows : List QueueRow} (w : World)
    (hlive : liveRows rows = first :: rest) :
    processBatchRows P calls amrId waypointId rows w =
      sendRows P calls amrId waypointId first rest
        ((rows.filter QueueRow.isOrphan).foldl purgeOrphan w) := by
  unfold processBatchRows
  rw [← liveRows, hlive]

/-- A decision is inserted, and the rows are deleted. -/
theorem sentWhole_of_decisionRow {P : Poller} {rows : List QueueRow} {w : World}
    {status : Nat} {row : DecisionRecord} (hlive : liveRows rows = first :: rest)
    (hsend : calls.sendBatch amrId waypointId (liveRows rows) = .ok (status, body))
    (hins : calls.insertDecision = .ok)
    (hrow : decisionRow calls amrId waypointId first rest body = .ok row) :
    SentWhole rows body w (processBatchRows P calls amrId waypointId rows w) := by
  have hrun : processBatchRows P calls amrId waypointId rows w =
      (liveRows rows).foldl finishRow
        (insertDecision calls ((rows.filter QueueRow.isOrphan).foldl purgeOrphan w) row) := by
    rw [processBatchRows_eq P w hlive, hlive]
    rw [hlive] at hsend
    simp only [sendRows, hsend, hrow, hins, Outcome.exc?]
  obtain ⟨hdecision, hfailed, hdead⟩ := foldl_purgeOrphan (rows.filter QueueRow.isOrphan) w
  have hinsert (v : World) : insertDecision calls v row =
      { v with decision := (v.decision.insertDecision row).1 } := by
    unfold insertDecision
    rw [hins]
    rfl
  rw [hrun, hinsert]
  refine ⟨⟨row, (of_decisionRow hrow).2.2, ?_⟩, ?_, ?_, ?_⟩
  · rw [decision_foldl_finishRow, hdecision]
  · intro r hr hqueued
    obtain ⟨q, hq, hk⟩ := hqueued
    obtain ⟨hq, hlive⟩ := mem_queue_foldl_finishRow.mp hq
    have horphan := ((mem_queue_foldl_of_dequeue fun _ _ => rfl).mp hq).2
    cases ho : r.isOrphan with
    | true => exact horphan r (List.mem_filter.mpr ⟨hr, ho⟩) hk.symm
    | false => exact hlive r (List.mem_filter.mpr ⟨hr, by rw [ho]; rfl⟩) hk.symm
  · exact (run_eq finishRow (fun w => w.poller.stats.failed) (fun _ _ => rfl) _ _).trans
      hfailed
  · exact (run_eq finishRow (fun w => w.poller.stats.deadLettered) (fun _ _ => rfl) _ _).trans
      hdead

/-- Without a decision every row goes to the retry or to the dead letters. -/
theorem not_sentWhole_of_decisionRow {P : Poller} {rows : List QueueRow} {w : World}
    {status : Nat} {exc : String} (hlive : liveRows rows = first :: rest)
    (hsend : calls.sendBatch amrId waypointId (liveRows rows) = .ok (status, body))
    (hrow : decisionRow calls amrId waypointId first rest body = .error exc) :
    ¬ SentWhole rows body w (processBatchRows P calls amrId waypointId rows w) := by
  have hrun : processBatchRows P calls amrId waypointId rows w =
      (first :: rest).foldl (handleFailure P calls exc)
        ((rows.filter QueueRow.isOrphan).foldl purgeOrphan w) := by
    rw [processBatchRows_eq P w hlive]
    rw [hlive] at hsend
    simp only [sendRows, hsend, hrow]
  intro h
  obtain ⟨-, hfailed, hdead⟩ := foldl_purgeOrphan (rows.filter QueueRow.isOrphan) w
  have hsum := failures_foldl_handleFailure P calls exc (first :: rest)
    ((rows.filter QueueRow.isOrphan).foldl purgeOrphan w)
  rw [← hrun, h.failed, h.deadLettered, hfailed, hdead, List.length_cons] at hsum
  omega

end Batch

/-- A batch takes its body exactly when the scores and the image fit. -/
theorem absorbs_iff (P : Poller) (calls : Calls) (amrId : String) (waypointId : Int)
    (rows : List QueueRow) (w : World) (status : Nat) (body : Json)
    (th : String → Option Double) (hlive : liveRows rows ≠ [])
    (hsend : calls.sendBatch amrId waypointId (liveRows rows) = .ok (status, body))
    (hth : calls.fetchThresholds = .ok th) (hins : calls.insertDecision = .ok) :
    Absorbs P calls amrId waypointId rows w body ↔
      ScoresFit body ∧ ImageFits calls.readBytes body := by
  rw [← yieldsScores_iff calls.floatOfStr]
  refine and_congr_right fun hscores => ?_
  obtain ⟨first, rest, hrows⟩ := List.exists_cons_of_ne_nil hlive
  rw [← exists_decisionRow_iff hth hscores]
  constructor
  · intro hsent
    cases hrow : decisionRow calls amrId waypointId first rest body with
    | ok row => exact ⟨row, rfl⟩
    | error exc => exact absurd hsent (not_sentWhole_of_decisionRow hrows hsend hrow)
  · rintro ⟨row, hrow⟩
    exact sentWhole_of_decisionRow hrows hsend hins hrow

/-! ## A text for a score -/

/-- The server answers with the body; every threshold is a half. -/
def answers (body : Json) : Calls where
  sendBatch := fun _ _ _ => .ok (200, body)
  fetchThresholds := .ok fun _ => some (.finite (1 / 2))
  floatOfStr := fun _ => none
  readBytes := fun _ => .error .osError
  insertDecision := .ok
  deadLetter := fun _ => .ok
  now := 2

/-- `{"score": "high"}`. -/
def highScore : Json := .obj [("score", .str "high")]

/-- The second row of the batch, at its first attempt. -/
def freshRow : QueueRow :=
  mixedAttempts.gw.joinRow { frameId := 2, dustId := some 1, enqueuedAt := 1 }

/-- `[{"score": 0.25, "path1": "a.jpg"}, {}]`. -/
def quarterScore : Json :=
  .arr [.obj [("score", .float (.finite (1 / 4))), ("path1", .str "a.jpg")], .obj []]

/-- The text is not absorbed.  A list is, with an image that cannot be opened and
without the second score. -/
theorem absorbs_iff_highScore :
    ¬ Absorbs { batchSize := 2, maxAttempts := 10 } (answers highScore) "amr-01" 7 [freshRow]
        mixedAttempts highScore ∧
      Absorbs { batchSize := 2, maxAttempts := 10 } (answers quarterScore) "amr-01" 7 [freshRow]
        mixedAttempts quarterScore := by
  have hfits : ∀ body, Absorbs { batchSize := 2, maxAttempts := 10 } (answers body) "amr-01" 7
      [freshRow] mixedAttempts body ↔ ScoresFit body ∧ ImageFits (answers body).readBytes body :=
    fun body => absorbs_iff { batchSize := 2, maxAttempts := 10 } (answers body) "amr-01" 7
      [freshRow] mixedAttempts 200 body (fun _ => some (.finite (1 / 2))) (by decide) rfl rfl rfl
  constructor
  · rw [hfits]
    exact fun h => absurd h.1 (by decide)
  · rw [hfits]
    refine ⟨by decide, fun path hpath => ?_⟩
    have himage : (pathPlaces quarterScore).find? Json.truthy = some (.str "a.jpg") := rfl
    obtain rfl := Option.some.inj (himage.symm.trans hpath)
    intro repr h
    have hother : ReadError.osError = .other repr := Except.error.inj h
    contradiction

/-- The text is passed on for both scores, and grading it fails the batch. -/
theorem not_absorbs_highScore :
    ¬ YieldsScores (answers highScore).floatOfStr highScore ∧
      ¬ SentWhole [freshRow] highScore mixedAttempts
        (processBatchRows { batchSize := 2, maxAttempts := 10 } (answers highScore) "amr-01" 7
          [freshRow] mixedAttempts) := by
  constructor
  · rintro ⟨s, d, h, hs, -⟩
    obtain ⟨rfl, -⟩ := Prod.mk.inj (Except.ok.inj h)
    exact hs
  · intro h
    exact absurd h.failed (by decide)

end DustMonitoring.PoolerTran
