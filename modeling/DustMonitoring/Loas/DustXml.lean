import DustMonitoring.Lib.Fallible
import DustMonitoring.Lib.Numerals

/-!
# The XML body of a DUST frame

`codec/loas/dust_xml.py`: the body is decoded, parsed, and read field by
field.  Every tag but `CMD_ID` may be missing.  The decoders and the XML parser
are parameters.

* `finiteValues_iff`: the measured value and the coordinates of an accepted
  body are finite exactly when none of their texts is a word for NaN or an
  infinity or a number beyond the doubles.
-/

namespace DustMonitoring.Loas.Dust

open DustMonitoring.Lib

/-! ## What is parsed -/

/-- An element of `ElementTree`: its tag, and its children with their texts. -/
structure Element where
  tag : String
  children : List (String × Option String)
deriving DecidableEq, Repr

/-- `raw.decode` for the two encodings, and `ET.fromstring`. -/
structure XmlReader where
  decodeUtf8 : List UInt8 → Option String
  decodeEucKr : List UInt8 → Option String
  fromString : String → Except String Element

/-- `DustInspectionPayload`. -/
structure DustInspectionPayload where
  cmdId : String
  dustData : Option Double := none
  dustAlarm : Option Int := none
  datetimeStr : Option String := none
  sensorType : Option Int := none
  sensorIndex : Option Int := none
  targetIndex : Option Int := none
  waypointX : Option Double := none
  waypointY : Option Double := none
  waypointZ : Option Double := none
  rotX : Option Double := none
  rotY : Option Double := none
  rotZ : Option Double := none
  rotW : Option Double := none
  ugvId : Option Int := none
  locationId : Option Int := none
  mapId : Option Int := none
  navigationId : Option Int := none
  execId : Option Int := none
  plantId : Option Int := none
  targetId : Option Int := none
  waypointId : Option Int := none
  inspectionLocalId : Option Int := none
  objectId : Option Int := none
  missionId : Option Int := none
  inspectionPan : Option Int := none
  inspectionTilt : Option Int := none
  inspectionLift : Option Int := none
deriving DecidableEq, Repr

/-- `LoasXmlError` and its subclasses, with the data their messages show.
`decode` is the `XmlDecodeError`. -/
inductive XmlError where
  | decode
  | malformed (exc : String)
  | rootTag (tag : String)
  | missingCmdId
  | unsupportedCmdId (cmdId : String)
  | value (tag text : String)
deriving DecidableEq, Repr

/-- `CMD_ID_DUST_INSPECTION`. -/
def cmdIdDustInspection : String := "DUST_INSPECTION_INFOR"

/-! ## Reading -/

/-- `decode_xml`. -/
def decodeXml (x : XmlReader) (raw : List UInt8) : Except XmlError String :=
  match x.decodeUtf8 raw with
  | some text => .ok text
  | none =>
    match x.decodeEucKr raw with
    | some text => .ok text
    | none => .error .decode

/-- `str.strip()`. -/
def stripText (raw : String) : List Char := strip isSpace raw.toList

/-- `_coerce`. -/
def coerce {α : Type} (raw : Option String) (caster : List Char → Option α) (tag : String) :
    Except XmlError (Option α) :=
  match raw with
  | none => .ok none
  | some raw =>
    let text := stripText raw
    if text = [] then .ok none
    else
      match caster text with
      | some value => .ok (some value)
      | none => .error (.value tag (String.ofList text))

/-- `get_text`. -/
def Element.getText (root : Element) (tag : String) : Option String :=
  (root.children.find? fun child => child.1 == tag).bind Prod.snd

/-- `get_text_either`. -/
def Element.getTextEither (root : Element) (tags : List String) : Option String :=
  (tags.filterMap root.getText).find? fun text => decide (stripText text ≠ [])

/-- A field that `float` reads. -/
def Element.float (root : Element) (tag : String) : Except XmlError (Option Double) :=
  coerce (root.getText tag) floatOfText tag

/-- A field that `int` reads. -/
def Element.int (root : Element) (tag : String) : Except XmlError (Option Int) :=
  coerce (root.getText tag) intOfText tag

/-- The fields of an element with this `CMD_ID`. -/
def Element.payload (root : Element) (cmdId : String) : Except XmlError DustInspectionPayload := do
  let dustData ← root.float "DUST_DATA"
  -- the second name is a typo of an earlier revision
  let dustAlarm ← coerce (root.getTextEither ["DUST_ALARM", "DUST_ALRAM"]) intOfText "DUST_ALARM"
  let datetime := stripText ((root.getText "DATETIME").getD "")
  let sensorType ← root.int "SENSOR_TYPE"
  let sensorIndex ← root.int "SENSOR_INDEX"
  let targetIndex ← root.int "TARGET_INDEX"
  let waypointX ← root.float "WAYPOINT_X"
  let waypointY ← root.float "WAYPOINT_Y"
  let waypointZ ← root.float "WAYPOINT_Z"
  let rotX ← root.float "ROT_X"
  let rotY ← root.float "ROT_Y"
  let rotZ ← root.float "ROT_Z"
  let rotW ← root.float "ROT_W"
  let ugvId ← root.int "UGV_ID"
  let locationId ← root.int "LOCATION_ID"
  let mapId ← root.int "MAP_ID"
  let navigationId ← root.int "NAVIGATION_ID"
  let execId ← root.int "EXEC_ID"
  let plantId ← root.int "PLANT_ID"
  let targetId ← root.int "TARGET_ID"
  let waypointId ← root.int "WAYPOINT_ID"
  let inspectionLocalId ←
    coerce (root.getTextEither ["INSPECTION_LOCAL_ID", "INSPECTION_LOACL_ID"]) intOfText
      "INSPECTION_LOCAL_ID"
  let objectId ← root.int "OBJECT_ID"
  let missionId ← root.int "MISSION_ID"
  let inspectionPan ← root.int "INSPECTION_PAN"
  let inspectionTilt ← root.int "INSPECTION_TILT"
  let inspectionLift ← root.int "INSPECTION_LIFT"
  return {
    cmdId, dustData, dustAlarm
    datetimeStr := if datetime = [] then none else some (String.ofList datetime)
    sensorType, sensorIndex, targetIndex, waypointX, waypointY, waypointZ, rotX, rotY, rotZ, rotW,
    ugvId, locationId, mapId, navigationId, execId, plantId, targetId, waypointId,
    inspectionLocalId, objectId, missionId, inspectionPan, inspectionTilt, inspectionLift }

/-- `parse_dust_inspection` after the XML parser. -/
def Element.inspection (root : Element) : Except XmlError DustInspectionPayload :=
  if root.tag ≠ "ELEMENT" then .error (.rootTag root.tag)
  else
    let cmdId := stripText ((root.getText "CMD_ID").getD "")
    if cmdId = [] then .error .missingCmdId
    else if String.ofList cmdId ≠ cmdIdDustInspection then
      .error (.unsupportedCmdId (String.ofList cmdId))
    else root.payload (String.ofList cmdId)

/-- `parse_dust_inspection`. -/
def parseDustInspection (x : XmlReader) (raw : List UInt8) :
    Except XmlError DustInspectionPayload := do
  let text ← decodeXml x raw
  match x.fromString text with
  | .error exc => .error (.malformed exc)
  | .ok root => root.inspection

/-! ## What an accepted body says -/

/-- The fields of the payload that are used further on are read from their
tags. -/
structure Element.Reads (root : Element) (p : DustInspectionPayload) : Prop where
  dustData : root.float "DUST_DATA" = .ok p.dustData
  waypointX : root.float "WAYPOINT_X" = .ok p.waypointX
  waypointY : root.float "WAYPOINT_Y" = .ok p.waypointY
  waypointZ : root.float "WAYPOINT_Z" = .ok p.waypointZ
  targetId : root.int "TARGET_ID" = .ok p.targetId
  waypointId : root.int "WAYPOINT_ID" = .ok p.waypointId

theorem reads_of_payload {root : Element} {cmdId : String} {p : DustInspectionPayload}
    (h : root.payload cmdId = .ok p) : root.Reads p := by
  unfold Element.payload at h
  simp only [bind_eq_ok] at h
  obtain ⟨_, hdust, _, -, _, -, _, -, _, -, _, hx, _, hy, _, hz, _, -, _, -, _, -, _, -, _, -, _, -,
    _, -, _, -, _, -, _, -, _, htarget, _, hwaypoint, _, -, _, -, _, -, _, -, _, -, _, -, h⟩ := h
  obtain rfl := Except.ok.inj h
  exact ⟨hdust, hx, hy, hz, htarget, hwaypoint⟩

theorem exists_payload_of_ok {root : Element} {p : DustInspectionPayload}
    (h : root.inspection = .ok p) : ∃ cmdId, root.payload cmdId = .ok p := by
  unfold Element.inspection at h
  by_cases htag : root.tag ≠ "ELEMENT"
  · rw [if_pos htag] at h
    cases h
  · rw [if_neg htag] at h
    by_cases hempty : stripText ((root.getText "CMD_ID").getD "") = []
    · rw [if_pos hempty] at h
      cases h
    · rw [if_neg hempty] at h
      by_cases hid : String.ofList (stripText ((root.getText "CMD_ID").getD "")) ≠
          cmdIdDustInspection
      · rw [if_pos hid] at h
        cases h
      · rw [if_neg hid] at h
        exact ⟨_, h⟩

theorem exists_root_of_ok {x : XmlReader} {raw : List UInt8} {p : DustInspectionPayload}
    (h : parseDustInspection x raw = .ok p) :
    ∃ text root, decodeXml x raw = .ok text ∧ x.fromString text = .ok root ∧ root.Reads p := by
  obtain ⟨text, htext, h⟩ := bind_eq_ok.mp h
  cases hroot : x.fromString text with
  | error exc =>
    rw [hroot] at h
    contradiction
  | ok root =>
    rw [hroot] at h
    obtain ⟨cmdId, hpayload⟩ := exists_payload_of_ok h
    exact ⟨text, root, htext, hroot, reads_of_payload hpayload⟩

/-! ## Finite values -/

/-- The tags of the measured value and the coordinates. -/
def valueTags : List String := ["DUST_DATA", "WAYPOINT_X", "WAYPOINT_Y", "WAYPOINT_Z"]

/-- The measured value and the coordinates. -/
def DustInspectionPayload.values (p : DustInspectionPayload) : List (Option Double) :=
  [p.dustData, p.waypointX, p.waypointY, p.waypointZ]

/-- They are finite or missing. -/
def DustInspectionPayload.FiniteValues (p : DustInspectionPayload) : Prop :=
  ∀ value ∈ p.values, ∀ d ∈ value, d.IsFinite

/-- The text of the tag is a decimal number in the range of the doubles, or
there is none. -/
def Element.InRange (root : Element) (tag : String) : Prop :=
  ∀ raw, root.getText tag = some raw → stripText raw ≠ [] →
    ∀ n, numeral (stripText raw) = some n → n.InRange

/-- So are the texts of the measured value and the coordinates. -/
def TextsInRange (x : XmlReader) (raw : List UInt8) : Prop :=
  ∀ text root, decodeXml x raw = .ok text → x.fromString text = .ok root →
    ∀ tag ∈ valueTags, root.InRange tag

theorem isFinite_float_iff {root : Element} {tag : String} {value : Option Double}
    (h : root.float tag = .ok value) : (∀ d ∈ value, d.IsFinite) ↔ root.InRange tag := by
  unfold Element.float coerce at h
  unfold Element.InRange
  cases hraw : root.getText tag with
  | none =>
    rw [hraw] at h
    obtain rfl := Except.ok.inj h
    exact iff_of_true (by simp) (by simp)
  | some raw =>
    simp only [hraw] at h
    split at h
    · next hempty =>
      obtain rfl := Except.ok.inj h
      refine iff_of_true (by simp) fun raw' hraw' hne => ?_
      obtain rfl := Option.some.inj hraw'
      exact absurd hempty hne
    · next hne =>
      cases hn : numeral (stripText raw) with
      | none => simp [floatOfText, hn] at h
      | some n =>
        simp only [floatOfText, hn, Option.map_some] at h
        obtain rfl := Except.ok.inj h
        have hiff := isFinite_toDouble_iff n
        constructor
        · intro hfinite raw' hraw' _ n' hn'
          obtain rfl := Option.some.inj hraw'
          rw [hn] at hn'
          obtain rfl := Option.some.inj hn'
          exact hiff.mp (hfinite _ rfl)
        · intro hrange d hd
          obtain rfl := Option.some.inj hd
          exact hiff.mpr (hrange raw rfl hne n hn)

theorem finiteValues_iff {x : XmlReader} {raw : List UInt8} {p : DustInspectionPayload}
    (h : parseDustInspection x raw = .ok p) : p.FiniteValues ↔ TextsInRange x raw := by
  obtain ⟨text, root, htext, hroot, hreads⟩ := exists_root_of_ok h
  have hvalues : p.FiniteValues ↔ ∀ tag ∈ valueTags, root.InRange tag := by
    simp only [DustInspectionPayload.FiniteValues, DustInspectionPayload.values, valueTags,
      List.forall_mem_cons, isFinite_float_iff hreads.dustData,
      isFinite_float_iff hreads.waypointX, isFinite_float_iff hreads.waypointY,
      isFinite_float_iff hreads.waypointZ, List.not_mem_nil, false_imp_iff, implies_true]
  rw [hvalues]
  constructor
  · intro hall text' root' htext' hroot'
    rw [htext] at htext'
    obtain rfl := Except.ok.inj htext'
    rw [hroot] at hroot'
    obtain rfl := Except.ok.inj hroot'
    exact hall
  · exact fun hall => hall text root htext hroot

end DustMonitoring.Loas.Dust
