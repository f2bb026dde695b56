import DustMonitoring.Lib.Fallible
import DustMonitoring.Lib.Json
import DustMonitoring.Lib.Numerals
import DustMonitoring.Lib.Run
import DustMonitoring.Lib.Table

/-!
# The runtime settings

`routes/settings.py` with the hash `config:runtime` of `redis_client.py`.
A `PUT` stores the texts of the values, every `GET` reads all stored texts
back by the types of the defaults.

Main results:

* `getSettings_served_iff` -- which stored texts let the page be shown;
* `forall_served_iff` -- the page is shown after each request of a run
  exactly when every request stores such texts only.
-/

namespace DustMonitoring.Dumopro

open DustMonitoring.Lib

/-! ## The defaults -/

/-- `DEFAULTS`. -/
def settingDefaults : List (String × Json) :=
  [("poll_interval_sec", .float (.finite (3 / 2))), ("poll_batch_limit", .int 500),
    ("restart_wait_sec", .float (.finite 10)), ("consecutive_failure_cap", .int 5),
    ("grace_period_sec", .float (.finite 30)), ("regression_degree", .int 2),
    ("regression_band_n", .float (.finite 2)), ("regression_percentile", .float (.finite 95)),
    ("regression_default_target", .str "median"), ("regression_target_combine", .str "OR"),
    ("chart_initial_unit", .str "day"), ("chart_default_ma", .str "7,30"),
    ("residual_cap", .int 10000)]

/-- A dictionary with texts as its keys. -/
abbrev Dict (α : Type) := Table (Prod.fst : String × α → String)

/-- `dict(DEFAULTS)`. -/
def defaultValues : Dict Json := ⟨settingDefaults, by decide⟩

/-! ## Reading -/

/-- What the routes take from Python: `str` of a value that is no text, and
the double nearest to a number. -/
structure SettingReader where
  render : Json → String
  nearest : Rat → Rat

/-- `str(v)`. -/
def SettingReader.str (r : SettingReader) : Json → String
  | .str text => text
  | value => r.render value

/-- `float(v)`; `none` is the `ValueError`. -/
def SettingReader.float (r : SettingReader) (v : String) : Option Double :=
  (floatOfText (strip isSpace v.toList)).map fun
    | .finite q => .finite (r.nearest q)
    | d => d

/-- `int` of a finite double. -/
def truncate (q : Rat) : Int := if q < 0 then -((-q).floor) else q.floor

/-- The value that a stored text becomes, by the type of its default.  An
infinity is no `int`, and `OverflowError` is no `ValueError`. -/
def SettingReader.convert (r : SettingReader) (original : Json) (v : String) :
    Except String Json :=
  match original with
  | .bool _ => .ok (.bool (decide (v.toLower ∈ ["1", "true", "yes"])))
  | .int _ =>
    match r.float v with
    | none | some .nan => .ok (.str v)
    | some .posInf | some .negInf => .error "cannot convert float infinity to integer"
    | some (.finite q) => .ok (.int (truncate q))
  | .float _ =>
    match r.float v with
    | none => .ok (.str v)
    | some d => .ok (.float d)
  | _ => .ok (.str v)

/-- The value under a key of the stored hash. -/
def SettingReader.value (r : SettingReader) (row : String × String) : Except String Json :=
  match settingDefaults.lookup row.1 with
  | some original => r.convert original row.2
  | none => .ok (.str row.2)

/-- `get_settings_route`, its `values`. -/
def getSettings (r : SettingReader) (stored : Dict String) : Except String (Dict Json) :=
  stored.rows.foldlM
    (fun merged row => (r.value row).map fun value => merged.upsert (row.1, value))
    defaultValues

/-- The part of `put_settings_route` that writes: `values` is the `dict` of
the request. -/
def putSettings (r : SettingReader) (stored : Dict String) (values : Dict Json) : Dict String :=
  let toWrite := values.rows.filter fun entry => (settingDefaults.lookup entry.1).isSome
  toWrite.foldl (fun stored entry => stored.upsert (entry.1, r.str entry.2)) stored

/-- The value can stand in JSON: it is no NaN and no infinity, which an encoder
either rejects or writes as `null`. -/
def Encodable : Json → Prop
  | .float d => d.IsFinite
  | _ => True

/-- The text is no number of the type of its default. -/
def SettingReader.Unreadable (r : SettingReader) (original : Json) (v : String) : Prop :=
  match original with
  | .int _ => r.float v = none ∨ r.float v = some .nan
  | .float _ => r.float v = none
  | _ => False

/-- The page is shown: the route returns values that can stand in JSON, and a
text that is no number of its type is there as it is. -/
def Served (r : SettingReader) (stored : Dict String) : Prop :=
  ∃ values, getSettings r stored = .ok values ∧ (∀ entry ∈ values.rows, Encodable entry.2) ∧
    ∀ row ∈ stored.rows, ∀ original, settingDefaults.lookup row.1 = some original →
      r.Unreadable original row.2 → (row.1, Json.str row.2) ∈ values.rows

/-! ## Which texts can be stored -/

/-- A text fits its key: with a default that is an `int` it is not read as
an infinity, with one that is a `float` not as NaN or an infinity. -/
def Fits (row : String × String) : Prop :=
  match settingDefaults.lookup row.1 with
  | some (.int _) =>
    floatOfText (strip isSpace row.2.toList) ≠ some .posInf ∧
      floatOfText (strip isSpace row.2.toList) ≠ some .negInf
  | some (.float _) => ∀ d, floatOfText (strip isSpace row.2.toList) = some d → d.IsFinite
  | _ => True

section Reader

variable {r : SettingReader}

/-- Whether a text fits is whether its value is there and can be encoded. -/
theorem fits_iff (row : String × String) :
    Fits row ↔ ∃ value, r.value row = .ok value ∧ Encodable value := by
  unfold Fits SettingReader.value SettingReader.convert SettingReader.float
  cases settingDefaults.lookup row.1 with
  | none => exact iff_of_true trivial ⟨_, rfl, trivial⟩
  | some original =>
    cases original with
    | int n =>
      dsimp only
      cases floatOfText (strip isSpace row.2.toList) with
      | none => exact iff_of_true (by simp) ⟨_, rfl, trivial⟩
      | some d =>
        cases d with
        | nan => exact iff_of_true (by simp) ⟨_, rfl, trivial⟩
        | finite q => exact iff_of_true (by simp) ⟨_, rfl, trivial⟩
        | posInf => simp
        | negInf => simp
    | float d =>
      dsimp only
      cases floatOfText (strip isSpace row.2.toList) with
      | none => exact iff_of_true (by simp) ⟨_, rfl, trivial⟩
      | some d => cases d <;> simp [Encodable, Double.IsFinite]
    | _ => exact iff_of_true trivial ⟨_, rfl, trivial⟩

theorem encodable_default {entry : String × Json} (h : entry ∈ defaultValues.rows) :
    Encodable entry.2 := by
  simp only [defaultValues, settingDefaults, List.mem_cons, List.not_mem_nil, or_false] at h
  rcases h with rfl | rfl | rfl | rfl | rfl | rfl | rfl | rfl | rfl | rfl | rfl | rfl | rfl <;>
    exact trivial

/-- The loop over the stored texts. -/
def mergeAll (r : SettingReader) (merged : Dict Json) (rows : List (String × String)) :
    Except String (Dict Json) :=
  rows.foldlM (fun merged row => (r.value row).map fun value => merged.upsert (row.1, value))
    merged

theorem mergeAll_cons (merged : Dict Json) (row : String × String)
    (rows : List (String × String)) :
    mergeAll r merged (row :: rows) =
      r.value row >>= fun value => mergeAll r (merged.upsert (row.1, value)) rows := by
  unfold mergeAll
  rw [List.foldlM_cons]
  cases r.value row <;> rfl

/-- All texts are merged when each of them has a value. -/
theorem mergeAll_ok_iff (merged : Dict Json) (rows : List (String × String)) :
    (∃ values, mergeAll r merged rows = .ok values) ↔
      ∀ row ∈ rows, ∃ value, r.value row = .ok value := by
  induction rows generalizing merged with
  | nil => exact iff_of_true ⟨merged, rfl⟩ (by simp)
  | cons row rows ih =>
    rw [List.forall_mem_cons, mergeAll_cons]
    cases hvalue : r.value row with
    | error exc =>
      refine iff_of_false ?_ ?_
      · rintro ⟨_, h⟩
        cases h
      · rintro ⟨⟨_, h⟩, -⟩
        cases h
    | ok value =>
      show (∃ values, mergeAll r _ rows = .ok values) ↔ _
      rw [ih]
      exact (and_iff_right ⟨value, rfl⟩).symm

/-- What is under a key after the loop: the value of its text, or what was
there before. -/
theorem find?_mergeAll {merged values : Dict Json} {rows : List (String × String)}
    (hnodup : (rows.map Prod.fst).Nodup) (h : mergeAll r merged rows = .ok values)
    (key : String) :
    (key ∉ rows.map Prod.fst → values.find? key = merged.find? key) ∧
      ∀ row ∈ rows, row.1 = key →
        ∃ value, r.value row = .ok value ∧ values.find? key = some (key, value) := by
  induction rows generalizing merged with
  | nil =>
    obtain rfl := Except.ok.inj h
    exact ⟨fun _ => rfl, by simp⟩
  | cons row rows ih =>
    rw [mergeAll_cons] at h
    cases hvalue : r.value row with
    | error exc =>
      rw [hvalue] at h
      cases h
    | ok value =>
      rw [hvalue] at h
      rw [List.map_cons, List.nodup_cons] at hnodup
      obtain ⟨hothers, hrows⟩ := ih hnodup.2 h
      have hupsert := Table.find?_upsert merged (row.1, value) key
      constructor
      · intro hkey
        rw [List.map_cons, List.mem_cons, not_or] at hkey
        rw [hothers hkey.2, hupsert, if_neg hkey.1]
      · intro row' hrow' heq
        rcases List.mem_cons.mp hrow' with rfl | hrest
        · subst heq
          refine ⟨value, hvalue, ?_⟩
          rw [hothers hnodup.1, hupsert, if_pos rfl]
        · exact hrows row' hrest heq

theorem value_of_unreadable {row : String × String} {original : Json}
    (hlookup : settingDefaults.lookup row.1 = some original)
    (h : r.Unreadable original row.2) : r.value row = .ok (.str row.2) := by
  unfold SettingReader.value
  rw [hlookup]
  unfold SettingReader.Unreadable at h
  unfold SettingReader.convert
  cases original with
  | int n =>
    dsimp only at h ⊢
    rcases h with h | h
    · rw [h]
    · rw [h]
  | float d =>
    dsimp only at h ⊢
    rw [h]
  | _ => exact absurd h id

/-- The page is shown exactly when all stored texts fit. -/
theorem getSettings_served_iff (stored : Dict String) :
    Served r stored ↔ ∀ row ∈ stored.rows, Fits row := by
  constructor
  · rintro ⟨values, hvalues, hencodable, -⟩ row hrow
    obtain ⟨-, hrows⟩ := find?_mergeAll stored.nodup hvalues row.1
    obtain ⟨value, hvalue, hfind⟩ := hrows row hrow rfl
    exact (fits_iff row).mpr
      ⟨value, hvalue, hencodable _ (Table.find?_eq_some_iff.mp hfind).1⟩
  · intro hfits
    have hok : ∀ row ∈ stored.rows, ∃ value, r.value row = .ok value := by
      intro row hrow
      obtain ⟨value, hvalue, -⟩ := (fits_iff row).mp (hfits row hrow)
      exact ⟨value, hvalue⟩
    obtain ⟨values, hvalues⟩ := (mergeAll_ok_iff defaultValues stored.rows).mpr hok
    refine ⟨values, hvalues, ?_, ?_⟩
    · intro entry hentry
      have hfound : values.find? entry.1 = some entry :=
        Table.find?_eq_some_iff.mpr ⟨hentry, rfl⟩
      obtain ⟨hothers, hrows⟩ := find?_mergeAll stored.nodup hvalues entry.1
      by_cases hkey : entry.1 ∈ stored.rows.map Prod.fst
      · obtain ⟨row, hrow, heq⟩ := List.mem_map.mp hkey
        obtain ⟨value, hvalue, hfind⟩ := hrows row hrow heq
        obtain ⟨value', hvalue', hencodable⟩ := (fits_iff row).mp (hfits row hrow)
        rw [hfound] at hfind
        obtain rfl := Except.ok.inj (hvalue.symm.trans hvalue')
        rw [Option.some.inj hfind]
        exact hencodable
      · have hdefault := hothers hkey
        rw [hfound] at hdefault
        exact encodable_default (Table.find?_eq_some_iff.mp hdefault.symm).1
    · intro row hrow original hlookup hunreadable
      obtain ⟨-, hrows⟩ := find?_mergeAll stored.nodup hvalues row.1
      obtain ⟨value, hvalue, hfind⟩ := hrows row hrow rfl
      obtain rfl := Except.ok.inj ((value_of_unreadable hlookup hunreadable).symm.trans hvalue)
      exact (Table.find?_eq_some_iff.mp hfind).1

/-! ## Requests one after the other -/

/-- The texts that a request stores fit their keys. -/
def RequestFits (r : SettingReader) (values : Dict Json) : Prop :=
  ∀ entry ∈ values.rows, (settingDefaults.lookup entry.1).isSome = true →
    Fits (entry.1, r.str entry.2)

theorem mem_putSettings {stored : Dict String} {values : Dict Json} {row : String × String} :
    row ∈ (putSettings r stored values).rows ↔
      (∃ entry ∈ values.rows, (settingDefaults.lookup entry.1).isSome = true ∧
        (entry.1, r.str entry.2) = row) ∨
      (row ∈ stored.rows ∧ ∀ entry ∈ values.rows,
        (settingDefaults.lookup entry.1).isSome = true → entry.1 ≠ row.1) := by
  let written := (values.rows.filter fun entry => (settingDefaults.lookup entry.1).isSome).map
    fun entry => (entry.1, r.str entry.2)
  have hnodup : (written.map Prod.fst).Nodup := by
    rw [List.map_map]
    exact values.nodup.sublist (List.filter_sublist.map Prod.fst)
  have hput : putSettings r stored values = written.foldl Table.upsert stored := by
    rw [List.foldl_map]
    rfl
  rw [hput, Table.mem_foldl_upsert hnodup]
  simp only [written, List.mem_map, List.mem_filter, and_assoc, forall_exists_index, and_imp]
  refine or_congr_right (and_congr_right fun _ => ?_)
  constructor
  · intro h entry hentry hknown
    exact h _ entry hentry hknown rfl
  · rintro h _ entry hentry hknown rfl
    exact h entry hentry hknown

/-- After a request the page is shown exactly when the texts of the request
fit. -/
theorem served_putSettings_iff {stored : Dict String} (values : Dict Json)
    (h : Served r stored) :
    Served r (putSettings r stored values) ↔ RequestFits r values := by
  rw [getSettings_served_iff] at h ⊢
  constructor
  · intro hall entry hentry hknown
    exact hall _ (mem_putSettings.mpr (Or.inl ⟨entry, hentry, hknown, rfl⟩))
  · intro hfits row hrow
    rcases mem_putSettings.mp hrow with ⟨entry, hentry, hknown, rfl⟩ | ⟨hstored, -⟩
    · exact hfits entry hentry hknown
    · exact h row hstored

end Reader

/-- The page is shown after each of the requests exactly when every request
stores texts that fit. -/
theorem forall_served_iff (r : SettingReader) {stored : Dict String} (h : Served r stored)
    (requests : List (Dict Json)) :
    (∀ done, done <+: requests → Served r (run (putSettings r) stored done)) ↔
      ∀ values ∈ requests, RequestFits r values := by
  rw [forall_prefix_iff_allSteps (fun _ values hserved => served_putSettings_iff values hserved)
    h requests]
  exact allSteps_const_iff

/-- `str` of a number, on the inputs below. -/
def sampleReader : SettingReader := ⟨fun _ => "2.5", id⟩

/-- `PUT` of one value. -/
def single (key : String) (value : Json) : Dict Json := ⟨[(key, value)], List.nodup_singleton _⟩

/-- Nothing is stored at first. -/
theorem served_empty (r : SettingReader) : Served r Table.empty :=
  (getSettings_served_iff _).mpr fun _ h => absurd h List.not_mem_nil

/-- `2.5` as a text fits, and so does `abc`, which is no number. -/
theorem forall_served_sample :
    Served sampleReader (run (putSettings sampleReader) Table.empty
      [single "poll_interval_sec" (.float (.finite (5 / 2))),
        single "residual_cap" (.str "abc")]) := by
  have hnumber : Fits ("poll_interval_sec", "2.5") := by
    have hread : floatOfText (strip isSpace "2.5".toList) = some (.finite (5 / 2)) := by
      decide +kernel
    intro d hd
    rw [hread] at hd
    obtain rfl := Option.some.inj hd
    trivial
  have htext : Fits ("residual_cap", "abc") := by
    have hread : floatOfText (strip isSpace "abc".toList) ≠ some .posInf ∧
        floatOfText (strip isSpace "abc".toList) ≠ some .negInf := by
      decide +kernel
    exact hread
  refine (forall_served_iff sampleReader (served_empty _) _).mpr ?_ _ (List.prefix_refl _)
  intro values hvalues entry hentry _
  simp only [List.mem_cons, List.not_mem_nil, or_false] at hvalues
  rcases hvalues with rfl | rfl
  · obtain rfl := List.mem_singleton.mp hentry
    exact hnumber
  · obtain rfl := List.mem_singleton.mp hentry
    exact htext

/-- After `inf` was stored for a whole number the page is not shown. -/
theorem not_served_inf :
    ¬ ∀ requests : List (Dict Json),
      Served sampleReader (run (putSettings sampleReader) Table.empty requests) := by
  intro h
  have hfits := (served_putSettings_iff (single "residual_cap" (.str "inf"))
    (served_empty sampleReader)).mp (h [single "residual_cap" (.str "inf")])
  have hfit : Fits ("residual_cap", "inf") :=
    hfits ("residual_cap", .str "inf") List.mem_cons_self (by decide)
  have hread : floatOfText (strip isSpace "inf".toList) = some .posInf := by
    decide +kernel
  exact hfit.1 hread

end DustMonitoring.Dumopro
