import DustMonitoring.Dumopro.Registry
import DustMonitoring.Lib.Glob
import DustMonitoring.Lib.Text

/-!
# The texts of the keys

`keys.py` puts a key together from a name, which can be any text, and from a
unit, a bucket or a target, with colons in between that nobody escapes.  A
bucket is a text of digits, hyphens, `T` and `W` that starts with a digit, so
the fields after the name can be read off from the end of the key.

* `key_inj`: the key determines its kind, the name, the unit, and the bucket or
  the target, and the name of a conflict is read from its key as it was.
-/

namespace DustMonitoring.Dumopro

open DustMonitoring.Lib

/-! ## Keys -/

/-- `Target`. -/
inductive Target where
  | median | max | q3
deriving DecidableEq, Repr

def Target.text : Target → String
  | .median => "median"
  | .max => "max"
  | .q3 => "q3"

/-- `residual`. -/
def residual (station : String) (unit : BucketUnit) (target : Target) : String :=
  "residual:" ++ station ++ ":" ++ unit.text ++ ":" ++ target.text

/-- `pending_conflict`. -/
def pendingConflict (station : String) : String := "pending_conflict:" ++ station

/-- A key of a station: one that its task writes, or one of the residuals. -/
inductive StationKey where
  | data (key : DataKey)
  | residual (unit : BucketUnit) (target : Target)
deriving DecidableEq, Repr

def StationKey.text (station : String) : StationKey → String
  | .data key => key.text station
  | .residual unit target => Dumopro.residual station unit target

/-- `bucket_key`.  `%Y` has four digits, or, where the C library does not fill
up, as many as the year has. -/
def bucketKeyText (yearWidth : Nat) (ts : DateTime) : BucketUnit → String
  | .hour =>
    zeroPad yearWidth ts.year ++ "-" ++ zeroPad 2 ts.month ++ "-" ++ zeroPad 2 ts.day ++ "T" ++
      zeroPad 2 ts.hour
  | .day => zeroPad yearWidth ts.year ++ "-" ++ zeroPad 2 ts.month ++ "-" ++ zeroPad 2 ts.day
  | .week =>
    let (isoYear, isoWeek) := isocalendar ts.year ts.month ts.day
    zeroPad 4 isoYear ++ "-W" ++ zeroPad 2 isoWeek
  | .month => zeroPad yearWidth ts.year ++ "-" ++ zeroPad 2 ts.month

/-- The bucket of a key, if it has one. -/
def StationKey.bucket? : StationKey → Option String
  | .data (.liveRaw _ bkey) => some bkey
  | .data (.liveStats _ bkey) => some bkey
  | .data (.frozen _ bkey) => some bkey
  | _ => none

/-- The bucket of the key comes from `bucket_key`. -/
def StationKey.Produced (yearWidth : Nat) (k : StationKey) : Prop :=
  ∀ bkey ∈ k.bucket?, ∃ ts unit, bkey = bucketKeyText yearWidth ts unit

/-! ## Conflicts -/

/-- `key.split(":", 1)[1] if ":" in key else key`. -/
def nameOfConflict (key : String) : String :=
  match key.toList.dropWhile fun c => decide (c ≠ ':') with
  | [] => key
  | _ :: name => String.ofList name

/-- Whether Redis matches the key with the pattern. -/
def redisGlob (pattern key : String) : Bool := Glob.glob (utf8 pattern) (utf8 key)

/-- `pending_conflict_pattern`. -/
def pendingConflictPattern : String := "pending_conflict:*"

/-- `get_pending_conflicts` in a Redis with these keys; a hash that is gone is
passed over. -/
def getPendingConflicts (hgetall : String → Option Conflict) (keys : List String) :
    List (String × Conflict) :=
  (keys.filter (redisGlob pendingConflictPattern)).filterMap fun key =>
    (hgetall key).map fun data => (nameOfConflict key, data)

theorem nameOfConflict_pendingConflict (station : String) :
    nameOfConflict (pendingConflict station) = station := by
  have htext : (pendingConflict station).toList.dropWhile (fun c => decide (c ≠ ':')) =
      ':' :: station.toList := by
    show ("pending_conflict:" ++ station).toList.dropWhile _ = _
    rw [String.toList_append]
    rfl
  unfold nameOfConflict
  rw [htext]
  exact String.ofList_toList

/-! ## The fields after the name -/

/-- A field after the name: no colon in it. -/
def IsField (s : String) : Prop := ':' ∉ s.toList

instance : DecidablePred IsField := fun _ => inferInstanceAs (Decidable (_ ∉ _))

theorem BucketUnit.isField (unit : BucketUnit) : IsField unit.text := by
  cases unit <;> decide

theorem BucketUnit.text_injective {unit unit' : BucketUnit} (h : unit.text = unit'.text) :
    unit = unit' := by
  cases unit <;> cases unit' <;> first | rfl | exact absurd h (by decide)

theorem Target.isField (target : Target) : IsField target.text := by
  cases target <;> decide

theorem Target.text_injective {target target' : Target} (h : target.text = target'.text) :
    target = target' := by
  cases target <;> cases target' <;> first | rfl | exact absurd h (by decide)

/-- A character of a bucket. -/
def IsBucketChar (c : Char) : Prop := c.isDigit = true ∨ c ∈ ['-', 'T', 'W']

theorem isBucketChar_bucketKeyText {yearWidth : Nat} {ts : DateTime} {unit : BucketUnit} :
    ∀ c ∈ (bucketKeyText yearWidth ts unit).toList, IsBucketChar c := by
  have happend : ∀ {s t : String}, (∀ c ∈ s.toList, IsBucketChar c) →
      (∀ c ∈ t.toList, IsBucketChar c) → ∀ c ∈ (s ++ t).toList, IsBucketChar c := by
    intro s t hs ht c hc
    rw [String.toList_append, List.mem_append] at hc
    exact hc.elim (hs c) (ht c)
  have hpad : ∀ width n, ∀ c ∈ (zeroPad width n).toList, IsBucketChar c :=
    fun _ _ _ hc => Or.inl (isDigit_of_mem_zeroPad hc)
  have hmark : ∀ {s : String}, s.toList.all (fun d => decide (d ∈ ['-', 'T', 'W'])) = true →
      ∀ c ∈ s.toList, IsBucketChar c :=
    fun hs c hc => Or.inr (of_decide_eq_true (List.all_eq_true.mp hs c hc))
  have hhyphen : ∀ c ∈ "-".toList, IsBucketChar c := hmark (by decide)
  have hmonth : ∀ c ∈ (zeroPad yearWidth ts.year ++ "-" ++ zeroPad 2 ts.month).toList,
      IsBucketChar c :=
    happend (happend (hpad _ _) hhyphen) (hpad _ _)
  have hday : ∀ c ∈ (zeroPad yearWidth ts.year ++ "-" ++ zeroPad 2 ts.month ++ "-" ++
      zeroPad 2 ts.day).toList, IsBucketChar c :=
    happend (happend hmonth hhyphen) (hpad _ _)
  cases unit with
  | hour => exact happend (happend hday (hmark (by decide))) (hpad _ _)
  | day => exact hday
  | week => exact happend (happend (hpad _ _) (hmark (by decide))) (hpad _ _)
  | month => exact hmonth

theorem isField_bucketKeyText (yearWidth : Nat) (ts : DateTime) (unit : BucketUnit) :
    IsField (bucketKeyText yearWidth ts unit) := by
  intro hc
  rcases isBucketChar_bucketKeyText _ hc with h | h
  · contradiction
  · simp at h

/-- A bucket starts with its year. -/
theorem exists_bucketKeyText (yearWidth : Nat) (ts : DateTime) (unit : BucketUnit) :
    ∃ width year rest, (bucketKeyText yearWidth ts unit).toList =
      (zeroPad width year).toList ++ rest := by
  cases unit with
  | hour => exact ⟨yearWidth, ts.year, _, by simp [bucketKeyText, String.toList_append]; rfl⟩
  | day => exact ⟨yearWidth, ts.year, _, by simp [bucketKeyText, String.toList_append]; rfl⟩
  | week => exact ⟨4, _, _, by simp [bucketKeyText, String.toList_append]; rfl⟩
  | month => exact ⟨yearWidth, ts.year, _, by simp [bucketKeyText, String.toList_append]; rfl⟩

/-- No bucket is a unit. -/
theorem bucketKeyText_ne_text (yearWidth : Nat) (ts : DateTime) (unit unit' : BucketUnit) :
    bucketKeyText yearWidth ts unit ≠ unit'.text := by
  intro h
  obtain ⟨width, year, rest, htext⟩ := exists_bucketKeyText yearWidth ts unit
  obtain ⟨c, digits, hpad⟩ := List.exists_cons_of_ne_nil (zeroPad_ne_nil width year)
  have hdigit : c.isDigit = true :=
    isDigit_of_mem_zeroPad (hpad ▸ List.mem_cons_self)
  rw [h, hpad, List.cons_append] at htext
  cases unit' <;> (obtain ⟨rfl, -⟩ := List.cons.inj htext; exact absurd hdigit (by decide))

/-! ## Reading a key -/

theorem field_inj {s s' t t' : String} (ht : IsField t) (ht' : IsField t')
    (h : s ++ ":" ++ t = s' ++ ":" ++ t') : s = s' ∧ t = t' := by
  have hlist := congrArg String.toList h
  simp only [String.toList_append, List.append_assoc] at hlist
  obtain ⟨hs, ht⟩ := (append_cons_inj_right ht ht').mp hlist
  exact ⟨String.toList_inj.mp hs, String.toList_inj.mp ht⟩

theorem name_inj {s t t' : String} (h : s ++ t = s ++ t') : t = t' := by
  have hlist := congrArg String.toList h
  rw [String.toList_append, String.toList_append] at hlist
  exact String.toList_inj.mp (List.append_cancel_left hlist)

/-! ## The start of a key -/

/-- What a key starts with. -/
def StationKey.start : StationKey → String
  | .data .cursor => "cursor:"
  | .data (.liveRaw _ _) => "live:raw:"
  | .data (.liveStats _ _) => "live:stats:"
  | .data (.frozen _ _) => "frozen:"
  | .data (.frozenIndex _) => "frozen:"
  | .residual _ _ => "residual:"

/-- What a key has behind its start. -/
def StationKey.body (station : String) : StationKey → String
  | .data .cursor => station
  | .data (.liveRaw unit bkey) => station ++ ":" ++ unit.text ++ ":" ++ bkey
  | .data (.liveStats unit bkey) => station ++ ":" ++ unit.text ++ ":" ++ bkey
  | .data (.frozen unit bkey) => station ++ ":" ++ unit.text ++ ":" ++ bkey
  | .data (.frozenIndex unit) => "index:" ++ (station ++ ":" ++ unit.text)
  | .residual unit target => station ++ ":" ++ unit.text ++ ":" ++ target.text

theorem StationKey.text_eq (station : String) (k : StationKey) :
    k.text station = k.start ++ k.body station := by
  have hfields : ∀ pre unit rest : String, pre ++ station ++ ":" ++ unit ++ ":" ++ rest =
      pre ++ (station ++ ":" ++ unit ++ ":" ++ rest) := by
    intro pre unit rest
    simp only [String.append_assoc]
  rcases k with (_ | ⟨unit, bkey⟩ | ⟨unit, bkey⟩ | ⟨unit, bkey⟩ | unit) | ⟨unit, target⟩
  · rfl
  · exact hfields _ _ _
  · exact hfields _ _ _
  · exact hfields _ _ _
  · show "frozen:index:" ++ station ++ ":" ++ unit.text =
      "frozen:" ++ ("index:" ++ (station ++ ":" ++ unit.text))
    have hstart : "frozen:index:" = "frozen:" ++ "index:" := by decide
    rw [hstart]
    simp only [String.append_assoc]
  · exact hfields _ _ _

/-- What the keys start with. -/
def starts : List String := ["cursor:", "live:raw:", "live:stats:", "frozen:", "residual:"]

theorem StationKey.start_mem_starts (k : StationKey) : k.start ∈ starts := by
  rcases k with (_ | _ | _ | _ | _) | _ <;> simp [start, starts]

theorem take_injOn_starts : ∀ pre ∈ starts, ∀ pre' ∈ starts,
    (utf8 pre).take 6 = (utf8 pre').take 6 → pre = pre' := by
  decide

theorem length_of_mem_starts : ∀ pre ∈ starts, 6 ≤ (utf8 pre).length := by
  decide

/-- Two starts that the same bytes begin with are the same. -/
theorem start_inj {pre pre' : String} (hpre : pre ∈ starts) (hpre' : pre' ∈ starts)
    {xs ys : List UInt8} (h : utf8 pre ++ xs = utf8 pre' ++ ys) : pre = pre' := by
  have htake := congrArg (List.take 6) h
  rw [List.take_append_of_le_length (length_of_mem_starts pre hpre),
    List.take_append_of_le_length (length_of_mem_starts pre' hpre')] at htake
  exact take_injOn_starts pre hpre pre' hpre' htake

theorem utf8_text (station : String) (k : StationKey) :
    utf8 (k.text station) = utf8 k.start ++ utf8 (k.body station) := by
  rw [StationKey.text_eq, utf8_append]

/-- `config_runtime`, `stations_list` and `stations_removed`. -/
def fixedKeys : List String := ["config:runtime", "stations:list", "stations:removed"]

theorem utf8_pendingConflictPattern :
    utf8 pendingConflictPattern = utf8 "pending_conflict:" ++ ['*'.toUInt8] := by
  decide

theorem redisGlob_pendingConflict (station : String) :
    redisGlob pendingConflictPattern (pendingConflict station) = true := by
  show redisGlob pendingConflictPattern ("pending_conflict:" ++ station) = true
  rw [redisGlob, utf8_pendingConflictPattern, utf8_append]
  exact (Glob.glob_plain_append (Glob.plain_of_all (by decide))).mpr ⟨_, rfl, Glob.glob_star _⟩

/-- Only a key that starts as the keys of conflicts do is found. -/
theorem redisGlob_eq_false {key : String} (h : (utf8 key).head? ≠ some 'p'.toUInt8) :
    redisGlob pendingConflictPattern key = false := by
  rw [Bool.eq_false_iff]
  intro hglob
  rw [redisGlob, utf8_pendingConflictPattern] at hglob
  obtain ⟨rest, hkey, -⟩ := (Glob.glob_plain_append (Glob.plain_of_all (by decide))).mp hglob
  rw [hkey] at h
  exact h rfl

theorem head?_utf8_text (station : String) (k : StationKey) :
    (utf8 (k.text station)).head? ≠ some 'p'.toUInt8 := by
  have hhead : ∀ pre ∈ starts, utf8 pre ≠ [] ∧ (utf8 pre).head? ≠ some 'p'.toUInt8 := by decide
  obtain ⟨hne, hp⟩ := hhead k.start k.start_mem_starts
  rw [utf8_text, List.head?_append_of_ne_nil _ hne]
  exact hp

/-- The conflicts are those whose keys are there, under the names that the keys
were made from. -/
theorem mem_getPendingConflicts {hgetall : String → Option Conflict} {keys : List String}
    (hkeys : ∀ key ∈ keys, (∃ station, key = pendingConflict station) ∨
      (∃ station k, key = StationKey.text station k) ∨ key ∈ fixedKeys)
    {name : String} {data : Conflict} :
    (name, data) ∈ getPendingConflicts hgetall keys ↔
      pendingConflict name ∈ keys ∧ hgetall (pendingConflict name) = some data := by
  simp only [getPendingConflicts, List.mem_filterMap, List.mem_filter, Option.map_eq_some_iff,
    Prod.mk.injEq]
  constructor
  · rintro ⟨key, ⟨hkey, hglob⟩, _, hdata, rfl, rfl⟩
    rcases hkeys key hkey with ⟨station, rfl⟩ | ⟨station, k, rfl⟩ | hfixed
    · rw [nameOfConflict_pendingConflict]
      exact ⟨hkey, hdata⟩
    · rw [redisGlob_eq_false (head?_utf8_text station k)] at hglob
      contradiction
    · have hhead : ∀ key ∈ fixedKeys, (utf8 key).head? ≠ some 'p'.toUInt8 := by decide
      rw [redisGlob_eq_false (hhead key hfixed)] at hglob
      contradiction
  · rintro ⟨hkey, hdata⟩
    exact ⟨pendingConflict name, ⟨hkey, redisGlob_pendingConflict name⟩, data, hdata,
      nameOfConflict_pendingConflict name, rfl⟩

/-- A frozen candle is not the index of a station, whatever their names are. -/
theorem frozen_ne_frozenIndex {station station' bkey : String} {unit unit' : BucketUnit}
    (hfield : IsField bkey) (hbucket : bkey ≠ unit'.text) :
    (DataKey.frozen unit bkey).text station ≠ (DataKey.frozenIndex unit').text station' := by
  intro h
  exact hbucket (field_inj hfield unit'.isField h).2

theorem StationKey.Produced.isField {yearWidth : Nat} {k : StationKey} {bkey : String}
    (h : k.Produced yearWidth) (hbkey : bkey ∈ k.bucket?) :
    IsField bkey ∧ ∀ unit : BucketUnit, bkey ≠ unit.text := by
  obtain ⟨ts, unit, rfl⟩ := h bkey hbkey
  exact ⟨isField_bucketKeyText _ _ _, bucketKeyText_ne_text _ _ _⟩

/-- The name, the unit and the last field behind the same start. -/
theorem fields_inj {pre station station' last last' : String} {unit unit' : BucketUnit}
    (hlast : IsField last) (hlast' : IsField last')
    (h : pre ++ station ++ ":" ++ unit.text ++ ":" ++ last =
      pre ++ station' ++ ":" ++ unit'.text ++ ":" ++ last') :
    station = station' ∧ unit = unit' ∧ last = last' := by
  obtain ⟨hfront, hlast⟩ := field_inj hlast hlast' h
  obtain ⟨hname, hu⟩ := field_inj unit.isField unit'.isField hfront
  exact ⟨name_inj hname, BucketUnit.text_injective hu, hlast⟩

/-- Two keys with the same text are the same key of the same station. -/
theorem text_inj {yearWidth : Nat} {station station' : String} {k k' : StationKey}
    (hk : k.Produced yearWidth) (hk' : k'.Produced yearWidth)
    (h : k.text station = k'.text station') : station = station' ∧ k = k' := by
  have hstart : k.start = k'.start := by
    have hbytes := congrArg utf8 h
    rw [utf8_text, utf8_text] at hbytes
    exact start_inj k.start_mem_starts k'.start_mem_starts hbytes
  rcases k with (_ | ⟨unit, bkey⟩ | ⟨unit, bkey⟩ | ⟨unit, bkey⟩ | unit) | ⟨unit, target⟩ <;>
    rcases k' with (_ | ⟨unit', bkey'⟩ | ⟨unit', bkey'⟩ | ⟨unit', bkey'⟩ | unit') |
      ⟨unit', target'⟩ <;>
    first
    | (simp [StationKey.start] at hstart; done)
    | skip
  -- the kinds with the same start
  · exact ⟨name_inj h, rfl⟩
  · obtain ⟨rfl, rfl, rfl⟩ :=
      fields_inj (hk.isField rfl).1 (hk'.isField rfl).1 h
    exact ⟨rfl, rfl⟩
  · obtain ⟨rfl, rfl, rfl⟩ :=
      fields_inj (hk.isField rfl).1 (hk'.isField rfl).1 h
    exact ⟨rfl, rfl⟩
  · obtain ⟨rfl, rfl, rfl⟩ :=
      fields_inj (hk.isField rfl).1 (hk'.isField rfl).1 h
    exact ⟨rfl, rfl⟩
  · obtain ⟨hfield, hne⟩ := hk.isField rfl
    exact absurd h (frozen_ne_frozenIndex hfield (hne unit'))
  · obtain ⟨hfield, hne⟩ := hk'.isField rfl
    exact absurd h.symm (frozen_ne_frozenIndex hfield (hne unit))
  · obtain ⟨hname, hu⟩ := field_inj unit.isField unit'.isField h
    obtain rfl := BucketUnit.text_injective hu
    exact ⟨name_inj hname, rfl⟩
  · obtain ⟨rfl, rfl, htarget⟩ := fields_inj target.isField target'.isField h
    obtain rfl := Target.text_injective htarget
    exact ⟨rfl, rfl⟩

/-- The keys of any two stations have the same text only where they are the same
key of the same station, and the conflicts are read back under the names that
their keys were made from. -/
theorem key_inj (yearWidth : Nat) :
    (∀ (station station' : String) (k k' : StationKey), k.Produced yearWidth →
      k'.Produced yearWidth → (k.text station = k'.text station' ↔ station = station' ∧ k = k')) ∧
    (∀ (hgetall : String → Option Conflict) (keys : List String),
      (∀ key ∈ keys, (∃ station, key = pendingConflict station) ∨
        (∃ station k, key = StationKey.text station k) ∨ key ∈ fixedKeys) →
      ∀ name data, (name, data) ∈ getPendingConflicts hgetall keys ↔
        pendingConflict name ∈ keys ∧ hgetall (pendingConflict name) = some data) := by
  refine ⟨fun station station' k k' hk hk' => ⟨text_inj hk hk', ?_⟩,
    fun hgetall keys hkeys name data => mem_getPendingConflicts hkeys⟩
  rintro ⟨rfl, rfl⟩
  rfl

/-- An hour of the station `index`, and the index of the hours of the station
`hour`; and a conflict of the name `hall:2` between the cursor of `hall` and the
list of the stations. -/
theorem key_inj_index :
    (StationKey.data (.frozen .hour "2026-01-01T10")).text "index" ≠
        (StationKey.data (.frozenIndex .hour)).text "hour" ∧
      ("hall:2", (⟨"A", "B"⟩ : Conflict)) ∈ getPendingConflicts (fun _ => some ⟨"A", "B"⟩)
        [(StationKey.data .cursor).text "hall", pendingConflict "hall:2", "stations:list"] := by
  have hfrozen : (StationKey.data (.frozen .hour "2026-01-01T10")).Produced 4 := by
    intro bkey hbkey
    obtain rfl := Option.some.inj hbkey
    exact ⟨{ year := 2026, month := 1, day := 1, hour := 10 }, .hour, by decide⟩
  have hindex : (StationKey.data (.frozenIndex .hour)).Produced 4 := by
    intro bkey hbkey
    contradiction
  obtain ⟨hkeys, hconflicts⟩ := key_inj 4
  constructor
  · intro h
    obtain ⟨hname, -⟩ := (hkeys "index" "hour" _ _ hfrozen hindex).mp h
    contradiction
  · refine (hconflicts _ _ ?_ _ _).mpr ⟨List.mem_cons_of_mem _ List.mem_cons_self, rfl⟩
    simp only [List.forall_mem_cons]
    exact ⟨Or.inr (Or.inl ⟨"hall", .data .cursor, rfl⟩), Or.inl ⟨"hall:2", rfl⟩,
      Or.inr (Or.inr (by decide)), fun _ h => absurd h List.not_mem_nil⟩

end DustMonitoring.Dumopro
