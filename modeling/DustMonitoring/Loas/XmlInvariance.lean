import DustMonitoring.Loas.DustXml

/-!
# What the parse of a DUST body depends on

`parse_dust_inspection` looks at the tag of the root and, for each tag it
knows, at the text of the first child with that tag.

Main results:

* `inspection_eq_of_reshaped` -- children with other tags, the order of
  children with different tags and the legacy spelling of a tag do not
  show;
* `inspection_eq_without` -- of two spellings the corrected one counts if
  its text is not blank, and otherwise the legacy one;
* `inspection_ok_iff` -- which elements are accepted;
* `parseDustInspection_invariant` -- the same of the bodies.
-/

namespace DustMonitoring.Loas.Dust

open DustMonitoring.Lib

/-! ## The tags -/

/-- The cast of a field. -/
inductive Caster
  | int
  | float
  deriving DecidableEq

/-- `caster(text)` returns. -/
def Caster.accepts : Caster → List Char → Bool
  | int, text => (intOfText text).isSome
  | float, text => (floatOfText text).isSome

/-- A tag that the vendor has corrected, with its earlier spelling. -/
structure Spelling where
  corrected : String
  legacy : String
  deriving DecidableEq

def dustAlarm : Spelling := ⟨"DUST_ALARM", "DUST_ALRAM"⟩

def inspectionLocalId : Spelling := ⟨"INSPECTION_LOCAL_ID", "INSPECTION_LOACL_ID"⟩

def spellings : List Spelling := [dustAlarm, inspectionLocalId]

def Spelling.tags (s : Spelling) : List String := [s.corrected, s.legacy]

/-- The numeric fields in the order in which they are read: the tags that
they are read from, and their casts. -/
def numericFields : List (List String × Caster) :=
  [(["DUST_DATA"], .float), (dustAlarm.tags, .int), (["SENSOR_TYPE"], .int),
    (["SENSOR_INDEX"], .int), (["TARGET_INDEX"], .int), (["WAYPOINT_X"], .float),
    (["WAYPOINT_Y"], .float), (["WAYPOINT_Z"], .float), (["ROT_X"], .float),
    (["ROT_Y"], .float), (["ROT_Z"], .float), (["ROT_W"], .float), (["UGV_ID"], .int),
    (["LOCATION_ID"], .int), (["MAP_ID"], .int), (["NAVIGATION_ID"], .int),
    (["EXEC_ID"], .int), (["PLANT_ID"], .int), (["TARGET_ID"], .int),
    (["WAYPOINT_ID"], .int), (inspectionLocalId.tags, .int), (["OBJECT_ID"], .int),
    (["MISSION_ID"], .int), (["INSPECTION_PAN"], .int), (["INSPECTION_TILT"], .int),
    (["INSPECTION_LIFT"], .int)]

/-- All tags that are looked up. -/
def knownTags : List String :=
  "CMD_ID" :: "DATETIME" :: numericFields.flatMap Prod.fst

/-- The text that a field is read from: that of its only tag, or the first
of its tags' texts that is not blank. -/
def Element.selected (root : Element) : List String → Option String
  | [tag] => root.getText tag
  | tags => root.getTextEither tags

/-! ## What is looked at -/

theorem inspection_congr {root root' : Element} (htag : root'.tag = root.tag)
    (hcmd : root'.getText "CMD_ID" = root.getText "CMD_ID")
    (hdatetime : root'.getText "DATETIME" = root.getText "DATETIME")
    (hfields : ∀ field ∈ numericFields, root'.selected field.1 = root.selected field.1) :
    root'.inspection = root.inspection := by
  simp only [numericFields, List.forall_mem_cons, Element.selected, dustAlarm,
    inspectionLocalId, Spelling.tags, List.not_mem_nil, false_implies, implies_true,
    and_true] at hfields
  unfold Element.inspection Element.payload Element.float Element.int
  simp only [htag, hcmd, hdatetime, hfields]

theorem selected_congr {root root' : Element} {tags : List String}
    (h : ∀ tag ∈ tags, root'.getText tag = root.getText tag) :
    root'.selected tags = root.selected tags := by
  have heither : root'.getTextEither tags = root.getTextEither tags := by
    unfold Element.getTextEither
    rw [List.filterMap_congr h]
  unfold Element.selected
  split
  · next tag => exact h tag (List.mem_singleton_self tag)
  · exact heither

/-- The fields look at the first texts of the known tags only. -/
theorem inspection_eq_of_getText {root root' : Element} (htag : root'.tag = root.tag)
    (h : ∀ tag ∈ knownTags, root'.getText tag = root.getText tag) :
    root'.inspection = root.inspection := by
  apply inspection_congr htag (h _ (by decide)) (h _ (by decide))
  intro field hfield
  apply selected_congr
  intro tag hmem
  apply h
  exact List.mem_cons_of_mem _ (List.mem_cons_of_mem _
    (List.mem_flatMap.mpr ⟨field, hfield, hmem⟩))

/-! ## Children that do not show -/

/-- `ys` is `xs` with children of other tags put in anywhere. -/
inductive Inserted : List (String × Option String) → List (String × Option String) → Prop
  | nil : Inserted [] []
  | keep (child) {xs ys} : Inserted xs ys → Inserted (child :: xs) (child :: ys)
  | insert (child) {xs ys} : child.1 ∉ knownTags → Inserted xs ys → Inserted xs (child :: ys)

/-- `ys` is `xs` in another order, in which children with the same tag come
as before. -/
inductive Reordered : List (String × Option String) → List (String × Option String) → Prop
  | nil : Reordered [] []
  | cons (child) {xs ys} : Reordered xs ys → Reordered (child :: xs) (child :: ys)
  | swap {a b} (xs) : a.1 ≠ b.1 → Reordered (a :: b :: xs) (b :: a :: xs)
  | trans {xs ys zs} : Reordered xs ys → Reordered ys zs → Reordered xs zs

/-- The first child with a tag. -/
def first (tag : String) (children : List (String × Option String)) :
    Option (String × Option String) :=
  children.find? fun child => child.1 == tag

theorem first_cons (tag : String) (child : String × Option String)
    (children : List (String × Option String)) :
    first tag (child :: children) =
      if child.1 = tag then some child else first tag children := by
  unfold first
  by_cases h : child.1 = tag
  · rw [List.find?_cons_of_pos (by simpa using h), if_pos h]
  · rw [List.find?_cons_of_neg (by simpa using h), if_neg h]

theorem first_of_inserted {xs ys : List (String × Option String)} (h : Inserted xs ys)
    {tag : String} (htag : tag ∈ knownTags) : first tag ys = first tag xs := by
  induction h with
  | nil => rfl
  | keep child _ ih => rw [first_cons, first_cons, ih]
  | insert child hunknown _ ih =>
    have hne : child.1 ≠ tag := by
      intro heq
      exact hunknown (heq ▸ htag)
    rw [first_cons, if_neg hne, ih]

theorem first_of_reordered {xs ys : List (String × Option String)} (h : Reordered xs ys)
    (tag : String) : first tag ys = first tag xs := by
  induction h with
  | nil => rfl
  | cons child _ ih => rw [first_cons, first_cons, ih]
  | swap xs hne =>
    rename_i a b
    simp only [first_cons]
    by_cases ha : a.1 = tag
    · have hb : b.1 ≠ tag := fun hb => hne (ha.trans hb.symm)
      simp only [if_pos ha, if_neg hb]
    · simp only [if_neg ha]
  | trans _ _ ih ih' => rw [ih', ih]

theorem getText_eq_first (root : Element) (tag : String) :
    root.getText tag = (first tag root.children).bind Prod.snd := rfl

/-! ## Two spellings -/

/-- Every child with the legacy tag has the corrected one instead. -/
def Element.renamed (root : Element) (s : Spelling) : Element :=
  { root with
    children := root.children.map fun child =>
      if child.1 = s.legacy then (s.corrected, child.2) else child }

/-- The element without the children with a tag. -/
def Element.without (root : Element) (tag : String) : Element :=
  { root with children := root.children.filter fun child => child.1 ≠ tag }

theorem getText_without_self (root : Element) (tag : String) :
    (root.without tag).getText tag = none := by
  have hnone : first tag (root.without tag).children = none := by
    apply List.find?_eq_none.mpr
    intro child hchild
    have hne := of_decide_eq_true (List.mem_filter.mp hchild).2
    simpa using hne
  rw [getText_eq_first, hnone]
  rfl

theorem getText_without_of_ne (root : Element) {tag other : String} (h : other ≠ tag) :
    (root.without tag).getText other = root.getText other := by
  have hfirst (children : List (String × Option String)) :
      first other (children.filter fun child => child.1 ≠ tag) = first other children := by
    induction children with
    | nil => rfl
    | cons child rest ih =>
      by_cases hchild : child.1 = tag
      · have hother : child.1 ≠ other := fun heq => h (heq.symm.trans hchild)
        rw [List.filter_cons_of_neg (by simpa using hchild), first_cons, if_neg hother, ih]
      · rw [List.filter_cons_of_pos (by simpa using hchild), first_cons, first_cons, ih]
  rw [getText_eq_first, getText_eq_first]
  exact congrArg (fun found => found.bind Prod.snd) (hfirst root.children)

section Renamed

variable {root : Element} {s : Spelling}

theorem getText_renamed_of_ne {tag : String} (hc : tag ≠ s.corrected) (hl : tag ≠ s.legacy) :
    (root.renamed s).getText tag = root.getText tag := by
  have hfirst (children : List (String × Option String)) :
      first tag (children.map fun child =>
        if child.1 = s.legacy then (s.corrected, child.2) else child) =
          first tag children := by
    induction children with
    | nil => rfl
    | cons child rest ih =>
      rw [List.map_cons, first_cons, first_cons, ih]
      by_cases hchild : child.1 = s.legacy
      · rw [if_pos hchild, if_neg (Ne.symm hc), if_neg (fun h => hl (h.symm.trans hchild))]
      · rw [if_neg hchild]
  rw [getText_eq_first, getText_eq_first]
  exact congrArg (fun found => found.bind Prod.snd) (hfirst root.children)

theorem getText_renamed_legacy (hne : s.corrected ≠ s.legacy) :
    (root.renamed s).getText s.legacy = none := by
  have hnone : first s.legacy (root.renamed s).children = none := by
    apply List.find?_eq_none.mpr
    intro child hchild
    obtain ⟨before, -, rfl⟩ := List.mem_map.mp hchild
    by_cases hlegacy : before.1 = s.legacy
    · simp [hlegacy, hne]
    · simp [hlegacy]
  rw [getText_eq_first, hnone]
  rfl

theorem getText_of_not_mem {tag : String} (h : tag ∉ root.children.map Prod.fst) :
    root.getText tag = none := by
  have hnone : first tag root.children = none := by
    apply List.find?_eq_none.mpr
    intro child hchild
    have hne : child.1 ≠ tag := fun heq => h (heq ▸ List.mem_map_of_mem hchild)
    simpa using hne
  rw [getText_eq_first, hnone]
  rfl

theorem getText_renamed_corrected (h : s.corrected ∉ root.children.map Prod.fst) :
    (root.renamed s).getText s.corrected = root.getText s.legacy := by
  have hfirst (children : List (String × Option String))
      (h : s.corrected ∉ children.map Prod.fst) :
      (first s.corrected (children.map fun child =>
        if child.1 = s.legacy then (s.corrected, child.2) else child)).bind Prod.snd =
          (first s.legacy children).bind Prod.snd := by
    induction children with
    | nil => rfl
    | cons child rest ih =>
      rw [List.map_cons, List.mem_cons, not_or] at h
      rw [List.map_cons, first_cons, first_cons]
      by_cases hchild : child.1 = s.legacy
      · rw [if_pos hchild, if_pos rfl, if_pos hchild]
        rfl
      · rw [if_neg hchild, if_neg hchild, if_neg (Ne.symm h.1), ih h.2]
  exact hfirst root.children h

/-- The texts of the two tags move as one. -/
theorem selected_renamed (h : s.corrected ∉ root.children.map Prod.fst)
    (hne : s.corrected ≠ s.legacy) :
    (root.renamed s).selected s.tags = root.selected s.tags := by
  unfold Spelling.tags Element.selected Element.getTextEither
  simp only [List.filterMap_cons, List.filterMap_nil, getText_renamed_corrected h,
    getText_renamed_legacy hne, getText_of_not_mem h]

end Renamed

/-- A field is read from both tags of a spelling or from neither. -/
theorem field_cases {s : Spelling} (hs : s ∈ spellings) {field : List String × Caster}
    (hfield : field ∈ numericFields) :
    field.1 = s.tags ∨ ∀ tag ∈ field.1, tag ≠ s.corrected ∧ tag ≠ s.legacy := by
  have hall : ∀ s ∈ spellings, ∀ field ∈ numericFields,
      field.1 = s.tags ∨ ∀ tag ∈ field.1, tag ≠ s.corrected ∧ tag ≠ s.legacy := by
    decide +kernel
  exact hall s hs field hfield

/-- Elements that differ in a spelling only, and agree on what is selected
for it. -/
theorem inspection_eq_of_selected {root root' : Element} {s : Spelling} (hs : s ∈ spellings)
    (htag : root'.tag = root.tag)
    (hothers : ∀ tag, tag ≠ s.corrected → tag ≠ s.legacy →
      root'.getText tag = root.getText tag)
    (hselected : root'.selected s.tags = root.selected s.tags) :
    root'.inspection = root.inspection := by
  have hreserved : ∀ s ∈ spellings, "CMD_ID" ≠ s.corrected ∧ "CMD_ID" ≠ s.legacy ∧
      "DATETIME" ≠ s.corrected ∧ "DATETIME" ≠ s.legacy := by
    decide
  obtain ⟨hcmd, hcmd', hdatetime, hdatetime'⟩ := hreserved s hs
  apply inspection_congr htag (hothers _ hcmd hcmd') (hothers _ hdatetime hdatetime')
  intro field hfield
  rcases field_cases hs hfield with heq | hdisjoint
  · rw [heq]
    exact hselected
  · apply selected_congr
    intro tag hmem
    exact hothers tag (hdisjoint tag hmem).1 (hdisjoint tag hmem).2

theorem corrected_ne_legacy {s : Spelling} (hs : s ∈ spellings) : s.corrected ≠ s.legacy := by
  have hall : ∀ s ∈ spellings, s.corrected ≠ s.legacy := by decide
  exact hall s hs

theorem inspection_renamed {root : Element} {s : Spelling} (hs : s ∈ spellings)
    (h : s.corrected ∉ root.children.map Prod.fst) :
    (root.renamed s).inspection = root.inspection := by
  apply inspection_eq_of_selected hs
  · rfl
  · exact fun tag hc hl => getText_renamed_of_ne hc hl
  · exact selected_renamed h (corrected_ne_legacy hs)

/-- There is a text, and it has more than blanks. -/
def nonBlank (raw : Option String) : Bool := raw.any fun text => decide (stripText text ≠ [])

/-- Of two spellings the corrected one is read if its text is not blank, and
otherwise the legacy one. -/
theorem inspection_eq_without {root : Element} {s : Spelling} (hs : s ∈ spellings) :
    root.inspection =
      if nonBlank (root.getText s.corrected) then (root.without s.legacy).inspection
      else (root.without s.corrected).inspection := by
  have hne := corrected_ne_legacy hs
  split
  · next hblank =>
    symm
    apply inspection_eq_of_selected hs
    · rfl
    · exact fun tag _ hl => getText_without_of_ne root hl
    · unfold Spelling.tags Element.selected Element.getTextEither
      simp only [List.filterMap_cons, List.filterMap_nil, getText_without_self,
        getText_without_of_ne root hne]
      cases hcorrected : root.getText s.corrected with
      | none => simp [hcorrected, nonBlank] at hblank
      | some text =>
        have htext : decide (stripText text ≠ []) = true := by
          simpa [hcorrected, nonBlank] using hblank
        simp only [List.find?_cons, htext]
  · next hblank =>
    symm
    apply inspection_eq_of_selected hs
    · rfl
    · exact fun tag hc _ => getText_without_of_ne root hc
    · unfold Spelling.tags Element.selected Element.getTextEither
      simp only [List.filterMap_cons, List.filterMap_nil, getText_without_self,
        getText_without_of_ne root (Ne.symm hne)]
      cases hcorrected : root.getText s.corrected with
      | none => rfl
      | some text =>
        have htext : decide (stripText text ≠ []) = false := by
          simpa [hcorrected, nonBlank] using hblank
        simp only [List.find?_cons, htext]

/-- A change that keeps what an element says. -/
inductive Element.Reshaped : Element → Element → Prop
  | inserted {tag xs ys} : Inserted xs ys → Reshaped ⟨tag, xs⟩ ⟨tag, ys⟩
  | reordered {tag xs ys} : Reordered xs ys → Reshaped ⟨tag, xs⟩ ⟨tag, ys⟩
  | renamed {root : Element} {s : Spelling} : s ∈ spellings →
      s.corrected ∉ root.children.map Prod.fst → Reshaped root (root.renamed s)

theorem inspection_eq_of_reshaped {root root' : Element} (h : root.Reshaped root') :
    root'.inspection = root.inspection := by
  cases h with
  | inserted hinserted =>
    refine inspection_eq_of_getText rfl ?_
    intro tag htag
    rw [getText_eq_first, getText_eq_first, first_of_inserted hinserted htag]
  | reordered hreordered =>
    refine inspection_eq_of_getText rfl ?_
    intro tag _
    rw [getText_eq_first, getText_eq_first, first_of_reordered hreordered]
  | renamed hs habsent => exact inspection_renamed hs habsent

/-! ## What is accepted -/

/-- The text of a field is blank or missing, or its cast returns. -/
def Caster.Reads (caster : Caster) (raw : Option String) : Prop :=
  ∀ text ∈ raw, stripText text = [] ∨ caster.accepts (stripText text) = true

structure Element.Accepted (root : Element) : Prop where
  tag : root.tag = "ELEMENT"
  cmdId : String.ofList (stripText ((root.getText "CMD_ID").getD "")) = cmdIdDustInspection
  fields : ∀ field ∈ numericFields, field.2.Reads (root.selected field.1)

theorem coerce_ok_iff {α : Type} (raw : Option String) (caster : List Char → Option α)
    (tag : String) : (∃ value, coerce raw caster tag = .ok value) ↔
      ∀ text ∈ raw, stripText text = [] ∨ (caster (stripText text)).isSome = true := by
  unfold coerce
  cases raw with
  | none => exact iff_of_true ⟨none, rfl⟩ (by simp)
  | some text =>
    by_cases hblank : stripText text = []
    · simp [hblank]
    · cases hcast : caster (stripText text) <;> simp [hblank, hcast]

theorem coerce_int_iff (raw : Option String) (tag : String) :
    (∃ value, coerce raw intOfText tag = .ok value) ↔ Caster.int.Reads raw :=
  coerce_ok_iff raw intOfText tag

theorem coerce_float_iff (raw : Option String) (tag : String) :
    (∃ value, coerce raw floatOfText tag = .ok value) ↔ Caster.float.Reads raw :=
  coerce_ok_iff raw floatOfText tag

theorem exists_bind_ok {ε α β : Type} {m : Except ε α} {f : α → Except ε β} :
    (∃ b, (m >>= f) = .ok b) ↔ ∃ a, m = .ok a ∧ ∃ b, f a = .ok b := by
  simp only [bind_eq_ok]
  constructor
  · intro ⟨b, a, ha, hb⟩
    exact ⟨a, ha, b, hb⟩
  · intro ⟨a, ha, b, hb⟩
    exact ⟨b, a, ha, hb⟩

theorem exists_pure_ok {ε α : Type} (a : α) :
    (∃ b, (pure a : Except ε α) = .ok b) ↔ True :=
  iff_true_intro ⟨a, rfl⟩

theorem payload_ok_iff (root : Element) (cmdId : String) :
    (∃ p, root.payload cmdId = .ok p) ↔
      ∀ field ∈ numericFields, field.2.Reads (root.selected field.1) := by
  unfold Element.payload Element.int Element.float
  simp only [exists_bind_ok, exists_pure_ok, and_true, exists_and_right, coerce_int_iff,
    coerce_float_iff]
  simp only [numericFields, List.forall_mem_cons, List.not_mem_nil, false_implies,
    implies_true, and_true, Element.selected, dustAlarm, inspectionLocalId, Spelling.tags]

theorem ofList_cmdId_ne_nil {text : List Char} (h : String.ofList text = cmdIdDustInspection) :
    text ≠ [] := by
  intro hnil
  subst hnil
  exact absurd h (by decide)

theorem inspection_ok_iff (root : Element) :
    (∃ p, root.inspection = .ok p) ↔ root.Accepted := by
  unfold Element.inspection
  constructor
  · intro ⟨p, h⟩
    split at h
    · cases h
    · next htag =>
      dsimp only at h
      split at h
      · cases h
      · split at h
        · cases h
        · next hid =>
          exact ⟨not_not.mp htag, not_not.mp hid, (payload_ok_iff root _).mp ⟨p, h⟩⟩
  · intro ⟨htag, hid, hfields⟩
    rw [if_neg (not_not.mpr htag)]
    dsimp only
    rw [if_neg (ofList_cmdId_ne_nil hid), if_neg (not_not.mpr hid)]
    exact (payload_ok_iff root _).mpr hfields

/-! ## Bodies -/

/-- The element that a body is parsed into. -/
def XmlReader.tree (x : XmlReader) (raw : List UInt8) : Except XmlError Element := do
  let text ← decodeXml x raw
  (x.fromString text).mapError XmlError.malformed

theorem parseDustInspection_eq (x : XmlReader) (raw : List UInt8) :
    parseDustInspection x raw = x.tree raw >>= Element.inspection := by
  unfold parseDustInspection XmlReader.tree
  cases decodeXml x raw with
  | error e => rfl
  | ok text =>
    cases hroot : x.fromString text with
    | error exc => simp only [bind, Except.bind, hroot, Except.mapError]
    | ok root => simp only [bind, Except.bind, hroot, Except.mapError]

theorem parseDustInspection_of_tree {x : XmlReader} {raw : List UInt8} {root : Element}
    (h : x.tree raw = .ok root) : parseDustInspection x raw = root.inspection := by
  rw [parseDustInspection_eq, h]
  rfl

/-- A reshaped element gives the same result, of two spellings the corrected
one wins unless it is blank, and a body is accepted exactly when its element
has the right root and command and every numeric field is blank or can be
cast. -/
theorem parseDustInspection_invariant (x : XmlReader) :
    (∀ raw raw' root root', x.tree raw = .ok root → x.tree raw' = .ok root' →
        root.Reshaped root' → parseDustInspection x raw' = parseDustInspection x raw) ∧
      (∀ raw root, x.tree raw = .ok root → ∀ s ∈ spellings,
        parseDustInspection x raw =
          if nonBlank (root.getText s.corrected) then (root.without s.legacy).inspection
          else (root.without s.corrected).inspection) ∧
      ∀ raw, (∃ p, parseDustInspection x raw = .ok p) ↔
        ∃ root, x.tree raw = .ok root ∧ root.Accepted := by
  refine ⟨?_, ?_, ?_⟩
  · intro raw raw' root root' hroot hroot' hreshaped
    rw [parseDustInspection_of_tree hroot, parseDustInspection_of_tree hroot']
    exact inspection_eq_of_reshaped hreshaped
  · intro raw root hroot s hs
    rw [parseDustInspection_of_tree hroot]
    exact inspection_eq_without hs
  · intro raw
    rw [parseDustInspection_eq, exists_bind_ok]
    simp only [inspection_ok_iff]

end DustMonitoring.Loas.Dust
