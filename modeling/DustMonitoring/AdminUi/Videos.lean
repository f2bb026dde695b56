import DustMonitoring.Lib.Json
import DustMonitoring.Lib.Select
import DustMonitoring.Lib.Table
import DustMonitoring.Lib.Uuid

/-!
# The list of videos

`list_paged` of `repository/video_repo.py` in the admin UI, which shows the
videos that pass some filters, a page at a time.  It asks for the number of them
and for the page in two statements with one `WHERE`, whose parameters are
numbered as the filters are given.

The scan of a page is that of its own statement, so what `ORDER BY` leaves open
may differ from page to page.

Main results:

* `selects_whereArgs` -- the conditions, each with its own parameter, are the
  filters that are given;
* `videoId_eq_of_compareTerms` -- `ORDER BY` leaves nothing open;
* `listPaged_partition` -- the pages are together a complete list;
* `mem_search_iff` -- what a search without wildcards finds.
-/

namespace DustMonitoring.AdminUi.Videos

open DustMonitoring.Lib DustMonitoring.Lib.Select

/-! ## The tables -/

/-- A row of `station`; the columns that no statement here reads are left out. -/
structure Station where
  stationId : BitVec 128
  stationName : String
deriving DecidableEq, Repr

/-- A row of `video`. -/
structure Video where
  videoId : BitVec 128
  stationId : BitVec 128
  amrId : Option String := none
  capturedAt : Option Int := none
  filePath : String
  durationSec : Option Double := none
  resolution : Option String := none
  sourceFormat : Option String := none
  amrPosition : Option Json := none
  qualityCheckResult : Option Json := none
  isValid : Bool := true
  isExcluded : Bool := false
  createdAt : Int

/-- A row of `_BASE_SELECT`. -/
structure Row extends Video where
  stationName : String

structure Db where
  station : Table Station.stationId
  video : Table Video.videoId
  /-- `REFERENCES station(station_id)`. -/
  references : ∀ v ∈ video.rows, ∃ s ∈ station.rows, s.stationId = v.stationId

/-- `FROM video v JOIN station s ON s.station_id = v.station_id`. -/
def Db.joined (db : Db) : List Row :=
  db.video.rows.flatMap fun v =>
    (db.station.rows.filter fun s => decide (s.stationId = v.stationId)).map fun s =>
      ⟨v, s.stationName⟩

/-- The columns of the join that the statements name. -/
inductive Column : SqlType → Type where
  | videoId : Column .uuid
  | stationName : Column .text
  | stationId : Column .uuid
  | amrId : Column .text
  | capturedAt : Column .timestamptz
  | durationSec : Column .float8
  | resolution : Column .text
  | sourceFormat : Column .text
  | isValid : Column .boolean
  | isExcluded : Column .boolean
  | createdAt : Column .timestamptz
  /-- `v.video_id::text`. -/
  | videoIdText : Column .text

def Column.value : (t : SqlType) → Column t → Row → Option t.Carrier
  | _, .videoId, r => some r.videoId
  | _, .stationName, r => some r.stationName
  | _, .stationId, r => some r.stationId
  | _, .amrId, r => r.amrId
  | _, .capturedAt, r => r.capturedAt
  | _, .durationSec, r => r.durationSec
  | _, .resolution, r => r.resolution
  | _, .sourceFormat, r => r.sourceFormat
  | _, .isValid, r => some r.isValid
  | _, .isExcluded, r => some r.isExcluded
  | _, .createdAt, r => some r.createdAt
  | _, .videoIdText, r => some (uuidText r.videoId)

/-! ## The statements -/

/-- `SORTABLE_COLUMNS`. -/
def sortableColumns : List (String × (t : SqlType) × Column t) :=
  [("video_id", ⟨_, .videoId⟩), ("station_name", ⟨_, .stationName⟩),
    ("station_id", ⟨_, .stationId⟩), ("amr_id", ⟨_, .amrId⟩),
    ("captured_at", ⟨_, .capturedAt⟩), ("duration_sec", ⟨_, .durationSec⟩),
    ("resolution", ⟨_, .resolution⟩), ("source_format", ⟨_, .sourceFormat⟩),
    ("is_valid", ⟨_, .isValid⟩), ("is_excluded", ⟨_, .isExcluded⟩),
    ("created_at", ⟨_, .createdAt⟩)]

/-- `_SORTABLE_DIRS`, and what `sort_dir.upper()` stands for. -/
def sortableDirs : List (String × Direction) := [("asc", .asc), ("desc", .desc)]

/-- The values in `filters`; a key that is missing is `None`. -/
structure Filters where
  stationId : Option (BitVec 128) := none
  stationName : Option String := none
  amrId : Option String := none
  format : Option String := none
  resolution : Option String := none
  fromDt : Option Int := none
  toDt : Option Int := none
  isValid : Option Bool := none
  isExcluded : Option Bool := none
  durationMin : Option Double := none
  durationMax : Option Double := none
  id8 : Option String := none
deriving DecidableEq, Repr

/-- `if filters.get(key):` of a text. -/
def nonempty (s? : Option String) : Option String := s?.filter fun s => decide (s ≠ "")

/-- `where` and `args` after the filters. -/
def Filters.whereArgs (f : Filters) : Binding Column :=
  let add : Binding Column := {}
  let add := add.addGiven (.compare .stationId .eq) f.stationId
  let add := add.addGiven (.ilike .stationName "%" "%") (nonempty f.stationName)
  let add := add.addGiven (.ilike .amrId "%" "%") (nonempty f.amrId)
  let add := add.addGiven (.compare .sourceFormat .eq) (nonempty f.format)
  let add := add.addGiven (.ilike .resolution "%" "%") (nonempty f.resolution)
  let add := add.addGiven (.compare .capturedAt .ge) f.fromDt
  let add := add.addGiven (.compare .capturedAt .lt) f.toDt
  let add := add.addGiven (.compare .isValid .eq) f.isValid
  let add := add.addGiven (.compare .isExcluded .eq) f.isExcluded
  let add := add.addGiven (.compare .durationSec .ge) f.durationMin
  let add := add.addGiven (.compare .durationSec .le) f.durationMax
  add.addGiven (.ilike .videoIdText "" "%") (nonempty f.id8)

/-- `order_sql`. -/
def orderSql (sortCol : String) (column : (t : SqlType) × Column t) (dir : Direction) :
    List (OrderTerm Column) :=
  ⟨column.1, column.2, dir, .last⟩ ::
    if sortCol ≠ "video_id" then [⟨.uuid, .videoId, .desc, .first⟩] else []

/-- What escapes `list_paged`. -/
inductive ListError where
  | value (detail : String)
  | query (e : QueryError)
deriving DecidableEq, Repr

variable (coll : Collation)

/-- `list_paged`. -/
def listPaged (db : Db) (scan : Scan db.joined) (sortCol sortDir : String) (filters : Filters)
    (page size : Int) : Except ListError (List Row × Nat) :=
  match sortableColumns.lookup sortCol, sortableDirs.lookup sortDir with
  | none, _ => .error (.value ("invalid sort column: " ++ sortCol))
  | some _, none => .error (.value ("invalid sort dir: " ++ sortDir))
  | some column, some dir =>
    let binding := filters.whereArgs
    let countArgs := binding.args
    let offset := max 0 ((page - 1) * size)
    let args := binding.args ++ [⟨.int8, size⟩] ++ [⟨.int8, offset⟩]
    let listSql : Query Column :=
      { conds := binding.conds
        order := orderSql sortCol column dir
        limit? := some (args.length - 1)
        offset? := some args.length }
    let countSql : Query Column := { conds := binding.conds }
    match countSql.count coll Column.value db.joined countArgs with
    | .error e => .error (.query e)
    | .ok total =>
      match listSql.fetch coll Column.value scan.order args with
      | .error e => .error (.query e)
      | .ok rows => .ok (rows, total)

/-! ## What is asked for -/

/-- `text ILIKE '%' || part || '%'`. -/
def Contains (text part : String) : Prop :=
  Like.ilike coll.lower ("%" ++ part ++ "%").toList text.toList = true

/-- `text ILIKE part || '%'`. -/
def StartsWith (text part : String) : Prop :=
  Like.ilike coll.lower ("" ++ part ++ "%").toList text.toList = true

instance (text part : String) : Decidable (Contains coll text part) :=
  inferInstanceAs (Decidable (_ = true))

instance (text part : String) : Decidable (StartsWith coll text part) :=
  inferInstanceAs (Decidable (_ = true))

/-- The row passes every filter that is given. -/
@[mk_iff]
structure Filters.Matches (f : Filters) (r : Row) : Prop where
  stationId : ∀ x ∈ f.stationId, r.stationId = x
  stationName : ∀ x ∈ nonempty f.stationName, Contains coll r.stationName x
  amrId : ∀ x ∈ nonempty f.amrId, ∃ y ∈ r.amrId, Contains coll y x
  format : ∀ x ∈ nonempty f.format, r.sourceFormat = some x
  resolution : ∀ x ∈ nonempty f.resolution, ∃ y ∈ r.resolution, Contains coll y x
  fromDt : ∀ x ∈ f.fromDt, ∃ y ∈ r.capturedAt, x ≤ y
  toDt : ∀ x ∈ f.toDt, ∃ y ∈ r.capturedAt, y < x
  isValid : ∀ x ∈ f.isValid, r.isValid = x
  isExcluded : ∀ x ∈ f.isExcluded, r.isExcluded = x
  durationMin : ∀ x ∈ f.durationMin, ∃ y ∈ r.durationSec, (compareDouble y x).isGE = true
  durationMax : ∀ x ∈ f.durationMax, ∃ y ∈ r.durationSec, (compareDouble y x).isLE = true
  id8 : ∀ x ∈ nonempty f.id8, StartsWith coll (uuidText r.videoId) x

instance (f : Filters) (r : Row) : Decidable (f.Matches coll r) :=
  decidable_of_iff _ (Filters.matches_iff coll f r).symm

/-- The videos that pass the filters. -/
def Db.matching (db : Db) (f : Filters) : List Row :=
  db.joined.filter fun r => decide (f.Matches coll r)

/-- The first row may stand before the second: if that one has a value, so has
the first, and they are in the order of the direction. -/
def InOrder (column : (t : SqlType) × Column t) (dir : Direction) (a b : Row) : Prop :=
  ∀ y ∈ column.2.value _ b, ∃ x ∈ column.2.value _ a,
    (dir.compare (column.1.compare coll) x y).isLE = true

/-- What a listing has to give, page by page, and the number it has to tell. -/
structure Complete (db : Db) (f : Filters) (column : (t : SqlType) × Column t) (dir : Direction)
    (rows : List Row) (total : Nat) : Prop where
  nodup : (rows.map fun r => r.videoId).Nodup
  mem_iff : ∀ r, r ∈ rows ↔ r ∈ db.joined ∧ f.Matches coll r
  ordered : rows.Pairwise (InOrder coll column dir)
  total_eq : total = (db.matching coll f).length

/-! ## The rows that are kept -/

variable {coll} {db : Db} {f : Filters} {r : Row}

/-- The conditions, each on its own parameter, are the filters. -/
theorem selects_whereArgs : f.whereArgs.Selects coll Column.value r ↔ f.Matches coll r := by
  have hstart : ({} : Binding Column).Selects coll Column.value r := rfl
  simp only [Filters.whereArgs, Binding.selects_addGiven, hstart, true_and, eval_eq_iff, and_assoc]
  simp only [eval_ilike_iff, eval_compare_iff, Column.value, Option.mem_some_iff,
    Option.some_inj, exists_eq_left', timestamptz_ge_iff, timestamptz_lt_iff]
  rw [Filters.matches_iff]
  rfl

/-- The join keeps every video, and doubles none. -/
theorem map_toVideo_joined (db : Db) : db.joined.map Row.toVideo = db.video.rows := by
  have hone : ∀ v ∈ db.video.rows,
      ((db.station.rows.filter fun s => decide (s.stationId = v.stationId)).map fun s =>
        (⟨v, s.stationName⟩ : Row)).map Row.toVideo = [v] := by
    intro v hv
    obtain ⟨s, hs, hid⟩ := db.references v hv
    rw [← hid, Table.filter_key_eq_singleton hs]
    rfl
  rw [Db.joined, List.map_flatMap, List.flatMap_congr hone, List.flatMap_singleton']

theorem nodup_videoId_joined (db : Db) : (db.joined.map fun r => r.videoId).Nodup := by
  have hids : (db.joined.map fun r => r.videoId) = db.video.rows.map Video.videoId := by
    rw [← map_toVideo_joined, List.map_map]
    rfl
  rw [hids]
  exact db.video.nodup

/-- The scan of a statement, as far as its `WHERE` keeps it. -/
theorem filter_scan_perm (coll : Collation) (f : Filters) (scan : Scan db.joined)
    (more : List Value) :
    (scan.order.filter
      (selects coll Column.value f.whereArgs.conds (f.whereArgs.args ++ more))).Perm
      (db.matching coll f) := by
  have hsel : selects coll Column.value f.whereArgs.conds (f.whereArgs.args ++ more) =
      fun r => decide (f.Matches coll r) := by
    funext r
    rw [Binding.selects_append_args, Bool.eq_iff_iff, decide_eq_true_iff]
    exact selects_whereArgs
  rw [hsel]
  exact scan.perm.filter _

/-! ## The order of the list -/

section Order

variable {sortCol : String} {column : (t : SqlType) × Column t} {dir : Direction} {a b : Row}

/-- The rows in the order of the statement. -/
def Db.listed (coll : Collation) (db : Db) (f : Filters)
    (order : List (OrderTerm Column)) : List Row :=
  sortBy (compareTerms coll Column.value order) (db.matching coll f)

theorem videoId_eq_of_compare {nulls : Nulls}
    (h : OrderTerm.compare coll Column.value ⟨.uuid, .videoId, dir, nulls⟩ a b = .eq) :
    a.videoId = b.videoId := by
  have hdir : dir.compare (SqlType.uuid.compare coll) a.videoId b.videoId = .eq := by
    cases nulls <;> exact h
  cases dir with
  | asc =>
    have hasc : SqlType.uuid.compare coll a.videoId b.videoId = .eq := hdir
    exact SqlType.compare_eq_iff.mp hasc
  | desc =>
    have hdesc : SqlType.uuid.compare coll b.videoId a.videoId = .eq := hdir
    exact (SqlType.compare_eq_iff.mp hdesc).symm

/-- Rows that `ORDER BY` does not tell apart have one id. -/
theorem videoId_eq_of_compareTerms (hcol : sortableColumns.lookup sortCol = some column)
    (h : compareTerms coll Column.value (orderSql sortCol column dir) a b = .eq) :
    a.videoId = b.videoId := by
  unfold orderSql at h
  split at h
  · -- `v.video_id DESC` comes second
    rw [compareTerms, compareLex, Ordering.then_eq_eq, compareTerms, compareLex,
      Ordering.then_eq_eq] at h
    exact videoId_eq_of_compare h.2.1
  · next hid =>
    -- the list is ordered by the id itself
    rw [not_not] at hid
    subst hid
    obtain rfl := Option.some.inj hcol
    rw [compareTerms, compareLex, Ordering.then_eq_eq] at h
    exact videoId_eq_of_compare h.1

/-- Whatever the scan, the rows come in one order. -/
theorem sortBy_scan (hcol : sortableColumns.lookup sortCol = some column)
    (scan : Scan db.joined) (more : List Value) :
    sortBy (compareTerms coll Column.value (orderSql sortCol column dir))
      (scan.order.filter
        (selects coll Column.value f.whereArgs.conds (f.whereArgs.args ++ more))) =
      db.listed coll f (orderSql sortCol column dir) := by
  have hperm := filter_scan_perm coll f scan more
  refine sortBy_eq_of_perm hperm ?_
  intro a ha b hb heq
  have ha : a ∈ db.joined := List.mem_of_mem_filter (hperm.mem_iff.mp ha)
  have hb : b ∈ db.joined := List.mem_of_mem_filter (hperm.mem_iff.mp hb)
  exact List.inj_on_of_nodup_map (nodup_videoId_joined db) ha hb
    (videoId_eq_of_compareTerms hcol heq)

theorem inOrder_of_compareTerms
    (h : (compareTerms coll Column.value (orderSql sortCol column dir) a b).isLE = true) :
    InOrder coll column dir a b := by
  have hle := Ordering.isLE_left_of_isLE_then h
  intro y hy
  rw [OrderTerm.compare, Option.mem_def.mp hy] at hle
  cases hx : column.2.value column.1 a with
  | none =>
    rw [hx] at hle
    cases hle
  | some x =>
    rw [hx] at hle
    exact ⟨x, rfl, hle⟩

theorem pairwise_listed (db : Db) (f : Filters) :
    (db.listed coll f (orderSql sortCol column dir)).Pairwise (InOrder coll column dir) :=
  (pairwise_sortBy _).imp inOrder_of_compareTerms

end Order

/-! ## The pages -/

section Pages

variable {sortCol sortDir : String} {column : (t : SqlType) × Column t} {dir : Direction}

/-- What `list_paged` answers does not depend on the scan: a page of the list,
and the number of all that pass the filters. -/
theorem listPaged_eq (hcol : sortableColumns.lookup sortCol = some column)
    (hdir : sortableDirs.lookup sortDir = some dir) (scan : Scan db.joined) {p size : Nat}
    (hp : 1 ≤ p) :
    listPaged coll db scan sortCol sortDir f p size =
      .ok (page size (db.listed coll f (orderSql sortCol column dir)) p,
        (db.matching coll f).length) := by
  have hoffset : max 0 (((p : Int) - 1) * size) = (((p - 1) * size : Nat) : Int) := by
    obtain ⟨k, rfl⟩ := Nat.exists_eq_add_of_le' hp
    have hcast : ((k + 1 : Nat) : Int) - 1 = k := by omega
    rw [Nat.add_sub_cancel, hcast, Nat.cast_mul, max_eq_right]
    exact Int.mul_nonneg (Int.natCast_nonneg k) (Int.natCast_nonneg size)
  have hcount : (db.joined.filter (selects coll Column.value f.whereArgs.conds
      f.whereArgs.args)).length = (db.matching coll f).length := by
    have hperm := filter_scan_perm coll f ⟨db.joined, List.Perm.refl _⟩ []
    rw [List.append_nil] at hperm
    exact hperm.length_eq
  unfold listPaged
  rw [hcol, hdir]
  dsimp only
  rw [Binding.count_eq, hcount, Binding.fetch_eq _ _ _ _ _ rfl, hoffset, List.append_assoc,
    sortBy_scan hcol, window_page]

theorem length_listed (order : List (OrderTerm Column)) :
    (db.listed coll f order).length = (db.matching coll f).length :=
  (perm_sortBy _ _).length_eq

/-- The list is complete. -/
theorem complete_listed (db : Db) (f : Filters) :
    Complete coll db f column dir (db.listed coll f (orderSql sortCol column dir))
      (db.matching coll f).length where
  nodup := by
    have hids : ((db.matching coll f).map fun r => r.videoId).Nodup :=
      (nodup_videoId_joined db).sublist (List.filter_sublist.map _)
    exact ((perm_sortBy _ _).map _).nodup_iff.mpr hids
  mem_iff := by
    intro r
    rw [Db.listed, (perm_sortBy _ _).mem_iff, Db.matching, List.mem_filter, decide_eq_true_iff]
  ordered := pairwise_listed db f
  total_eq := rfl

/-- The pages from one on, each of them from a scan of its own, are together a
complete list of the rows that pass the filters. -/
theorem listPaged_partition (coll : Collation) (db : Db) (f : Filters)
    (hcol : sortableColumns.lookup sortCol = some column)
    (hdir : sortableDirs.lookup sortDir = some dir) {size : Nat} (hsize : 1 ≤ size) :
    ∃ (total : Nat) (pages : Nat → List Row),
      (∀ (p : Nat) (scan : Scan db.joined), 1 ≤ p →
        listPaged coll db scan sortCol sortDir f p size = .ok (pages p, total)) ∧
      Complete coll db f column dir
        ((List.range' 1 (total ⌈/⌉ size)).flatMap pages) total := by
  let listed := db.listed coll f (orderSql sortCol column dir)
  refine ⟨(db.matching coll f).length, page size listed, ?_, ?_⟩
  · intro p scan hp
    exact listPaged_eq hcol hdir scan hp
  · have hpages : (List.range' 1 ((db.matching coll f).length ⌈/⌉ size)).flatMap
        (page size listed) = listed := by
      rw [← length_listed (orderSql sortCol column dir)]
      exact flatMap_page hsize listed
    rw [hpages]
    exact complete_listed db f

/-- Six videos of one station, two of them without a duration and two of one
duration. -/
def sampleDb : Db where
  station := ⟨[⟨7, "Hall A"⟩], by decide⟩
  video :=
    ⟨[{ videoId := 1, stationId := 7, filePath := "a.mp4", createdAt := 10 },
      { videoId := 2, stationId := 7, filePath := "b.mp4", createdAt := 20,
        durationSec := some (.finite 3) },
      { videoId := 3, stationId := 7, filePath := "c.mp4", createdAt := 30,
        durationSec := some (.finite 3) },
      { videoId := 4, stationId := 7, filePath := "d.mp4", createdAt := 40 },
      { videoId := 5, stationId := 7, filePath := "e.mp4", createdAt := 50,
        durationSec := some .nan },
      { videoId := 6, stationId := 7, filePath := "f.mp4", createdAt := 60,
        durationSec := some .negInf }], by decide⟩
  references := by decide

def sampleFilters : Filters := { stationName := some "hall" }

theorem listPaged_partition_sampleDb :
    ∃ (total : Nat) (pages : Nat → List Row),
      (∀ (p : Nat) (scan : Scan sampleDb.joined), 1 ≤ p →
        listPaged .c sampleDb scan "duration_sec" "desc" sampleFilters p (4 : Nat) =
          .ok (pages p, total)) ∧
      Complete .c sampleDb sampleFilters ⟨.float8, .durationSec⟩ .desc
        ((List.range' 1 (total ⌈/⌉ (4 : Nat))).flatMap pages) total :=
  listPaged_partition .c sampleDb sampleFilters rfl rfl (Nat.le_add_left 1 3)

example : ((listPaged .c sampleDb ⟨_, List.reverse_perm _⟩ "duration_sec" "desc"
    sampleFilters 1 4).map fun answer =>
      (answer.1.map fun r => r.videoId.toNat, answer.2)) = .ok ([5, 3, 2, 6], 6) := by
  decide +kernel

end Pages

/-! ## Filters without wildcards -/

/-- A part of a text is found whatever its case. -/
theorem contains_iff {text part : String} (hpart : ∀ c ∈ part.toList, Like.Plain c) :
    Contains coll text part ↔ part.toList.map coll.lower <:+: text.toList.map coll.lower := by
  have hpattern : ("%" ++ part ++ "%").toList = '%' :: (part.toList ++ ['%']) := by simp
  rw [Contains, hpattern, Like.ilike_contains hpart]

theorem startsWith_iff {text part : String} (hpart : ∀ c ∈ part.toList, Like.Plain c) :
    StartsWith coll text part ↔ part.toList.map coll.lower <+: text.toList.map coll.lower := by
  have hpattern : ("" ++ part ++ "%").toList = part.toList ++ ['%'] := by simp
  rw [StartsWith, hpattern, Like.ilike_startsWith hpart]

theorem forall_mem_nonempty {P : String → Prop} {text : String} (hempty : P "") :
    (∀ x ∈ nonempty (some text), P x) ↔ P text := by
  by_cases htext : text = ""
  · subst htext
    simp [nonempty, hempty]
  · simp [nonempty, htext]

/-- A search by a part of the name of the station and the start of the id finds
the videos that have them, whatever the case; an empty text finds all. -/
theorem mem_search_iff {name id8 : String} (hname : ∀ c ∈ name.toList, Like.Plain c)
    (hid8 : ∀ c ∈ id8.toList, Like.Plain c) :
    r ∈ db.matching coll { stationName := some name, id8 := some id8 } ↔
      r ∈ db.joined ∧
        name.toList.map coll.lower <:+: r.stationName.toList.map coll.lower ∧
        id8.toList.map coll.lower <+: (uuidText r.videoId).toList.map coll.lower := by
  have hcontains : (∀ x ∈ nonempty (some name), Contains coll r.stationName x) ↔
      Contains coll r.stationName name :=
    forall_mem_nonempty ((contains_iff (by simp)).mpr (by simp))
  have hstarts : (∀ x ∈ nonempty (some id8), StartsWith coll (uuidText r.videoId) x) ↔
      StartsWith coll (uuidText r.videoId) id8 :=
    forall_mem_nonempty ((startsWith_iff (by simp)).mpr (by simp))
  rw [Db.matching, List.mem_filter, decide_eq_true_iff, Filters.matches_iff]
  dsimp only
  rw [hcontains, hstarts, contains_iff hname, startsWith_iff hid8]
  simp [nonempty]

end DustMonitoring.AdminUi.Videos
