import DustMonitoring.Ingestion.Receipts

/-!
# The books of the gateway

What the tables have, counted against what the senders were told.  A row that
is inserted comes with a reply, unless the answer of the database was lost or
the connection was cut off at that moment.

Main results:

* `rows_balance` -- the rows that there are and those that were deleted are the
  replies of their kind and the inserts that nobody was told of.
-/

namespace DustMonitoring.Ingestion.Standard

open DustMonitoring.Lib DustMonitoring.GwProto

/-! ## What an event does to the tables -/

/-- The pending call of the connection, with its answer. -/
def System.exchanged (s : System) (id : Nat) (c : Circumstance) : Trace :=
  match s.pending id with
  | some k => [⟨k, (s.db.perform c k).2⟩]
  | none => []

/-- The call that the event carries out, with its answer. -/
def exchange (s : System) : Event → Trace
  | .answer id c | .close id (some c) => s.exchanged id c
  | .connect _ | .frame _ _ _ | .close _ none | .write _ => []

/-- The rows of the table. -/
def rowCount (kind : Kind) (db : Db) : Nat :=
  match kind with
  | .log => db.ingestionLog.rows.length
  | .sample => db.sensorSample.rows.length
  | .video => db.video.rows.length

/-- The rows that the event deletes. -/
def deletedRows (kind : Kind) (s : System) : Event → Nat
  | .write (.deleteSamples p) =>
    if kind = .sample then (s.db.sensorSample.rows.filter p).length else 0
  | .write (.deleteVideos p) => if kind = .video then (s.db.video.rows.filter p).length else 0
  | .write (.deleteLogs p) =>
    if kind = .log then (s.db.ingestionLog.rows.filter p).length else 0
  | _ => 0

/-- A call of the kind took effect. -/
def took (kind : Kind) (x : Exchange Call fun k => Answer k.Result) : Nat :=
  if x.1.kind? = some kind ∧ x.2.applied = true then 1 else 0

theorem rowCount_write {kind : Kind} {db after : Db} {c : Circumstance} {violated : Option String}
    {n : Nat} (h : violated = none → rowCount kind after = rowCount kind db + n) :
    rowCount kind (c.write db after violated).1 =
      rowCount kind db + if (c.write db after violated).2.applied then n else 0 := by
  unfold Circumstance.write
  cases violated with
  | some text =>
    have hrefused : (c.refused text).applied = false := by
      unfold Circumstance.refused
      split <;> rfl
    simp [hrefused]
  | none =>
    dsimp only
    cases c.answer.applied with
    | true => exact h rfl
    | false => rfl

/-- A call that writes a row into one table, or none. -/
theorem rowCount_took {kind : Kind} {db after : Db} {c : Circumstance}
    {violated : Option String} {k : Call} {result : Answer k.Result}
    (hresult : result.applied = (c.write db after violated).2.applied)
    (h : violated = none →
      rowCount kind after = rowCount kind db + if k.kind? = some kind then 1 else 0) :
    rowCount kind (c.write db after violated).1 = rowCount kind db + took kind ⟨k, result⟩ := by
  rw [rowCount_write h, took, hresult]
  cases (c.write db after violated).2.applied <;> simp

theorem rowCount_perform (kind : Kind) (db : Db) (c : Circumstance) (k : Call) :
    rowCount kind (db.perform c k).1 = rowCount kind db + took kind ⟨k, (db.perform c k).2⟩ := by
  cases k with
  | lookupByName stationName => simp [took, Call.kind?, Db.perform]
  | assembleAndSave buf => simp [took, Call.kind?, Db.perform]
  | upsert stationName =>
    refine rowCount_took rfl fun _ => ?_
    cases kind <;> rfl
  | insertLog entry =>
    refine rowCount_took rfl fun _ => ?_
    cases kind <;> simp [rowCount, Call.kind?, SerialTable.append]
  | insertSample row =>
    refine rowCount_took rfl fun _ => ?_
    cases kind <;> simp [rowCount, Call.kind?, SerialTable.append]
  | insertVideo row =>
    refine rowCount_took rfl fun hviolated => ?_
    have hnew : db.video.find? row.videoId = none := by
      unfold Db.videoViolation at hviolated
      cases hfind : db.video.find? row.videoId with
      | none => rfl
      | some r => simp [hfind] at hviolated
    cases kind <;> simp [rowCount, Call.kind?, Table.rows_insert_of_find? hnew]

/-- An event changes the number of rows by what it deletes and what it carries
out. -/
theorem rowCount_dbAfter (kind : Kind) (s : System) (e : Event) :
    rowCount kind (dbAfter s e) + deletedRows kind s e =
      rowCount kind s.db + sumOver (took kind) (exchange s e) := by
  have hperform : ∀ id c, rowCount kind (s.performed id c) = rowCount kind s.db +
      sumOver (took kind) (s.exchanged id c) := by
    intro id c
    unfold System.performed System.exchanged
    cases s.pending id with
    | none => rfl
    | some k => exact rowCount_perform kind s.db c k
  cases e with
  | connect id => rfl
  | frame id msgType payload => rfl
  | answer id c => exact hperform id c
  | close id last =>
    cases last with
    | none => rfl
    | some c => exact hperform id c
  | write w =>
    cases w with
    | deleteSamples p =>
      have hlength := s.db.sensorSample.length_deleteWhere p
      cases kind <;> simp [dbAfter, Db.write, deletedRows, exchange, rowCount, sumOver]
      exact hlength
    | deleteVideos p =>
      have hlength := s.db.video.length_deleteWhere p
      cases kind <;> simp [dbAfter, Db.write, deletedRows, exchange, rowCount, sumOver]
      exact hlength
    | deleteLogs p =>
      have hlength := s.db.ingestionLog.length_deleteWhere p
      cases kind <;> simp [dbAfter, Db.write, deletedRows, exchange, rowCount, sumOver]
      exact hlength
    | deleteStation stationId =>
      simp only [dbAfter, Db.write, deletedRows, exchange, sumOver]
      split <;> cases kind <;> rfl
    | _ => cases kind <;> rfl

/-! ## What the senders are told -/

/-- What has happened to the connections. -/
def serverRun (g : Gateway) (events : List Event) :
    List (ServerEvent Nat GwProto.Message Call fun k => Answer k.Result) :=
  outputs (step g) (serverEvents g) {} events

/-- The messages that were handled, in order. -/
def receipts (g : Gateway) (events : List Event) : List Handled :=
  outputs (service g).step (Service.ofMove (service g).handled) Table.empty (serverRun g events)

def isAck : Except Exc (Option Response) → Bool
  | .ok (some .ack) => true
  | _ => false

def isError : Except Exc (Option Response) → Bool
  | .ok (some (.error _)) => true
  | _ => false

def isSilent : Except Exc (Option Response) → Bool
  | .ok none => true
  | _ => false

/-- The end of the message stands for a row of the table: an acknowledged sample
or video, a refusal that was read, an `ERROR` of the sender. -/
def tells (kind : Kind) (r : Handled) : Bool :=
  match kind with
  | .sample => decide (r.msg.msgType = .sensorSample) && isAck r.result
  | .video => decide (r.msg.msgType = .videoComplete) && isAck r.result
  | .log =>
    isError r.result && !refusedUnread r.msg ||
      decide (r.msg.msgType = .error) && isSilent r.result

/-- An answer of the kind that was lost on its way. -/
def lostOf (kind : Kind) (x : Exchange Call fun k => Answer k.Result) : Nat :=
  match x.2 with
  | .lost _ => if x.1.kind? = some kind then 1 else 0
  | .ok _ | .failed _ => 0

/-- The inserts of the event that nobody is told of: the answer is lost, or the
connection is closed. -/
def unseen (kind : Kind) (s : System) : Event → Nat
  | .answer id c => sumOver (lostOf kind) (s.exchanged id c)
  | .close id (some c) => sumOver (took kind) (s.exchanged id c)
  | .connect _ | .frame _ _ _ | .close _ none | .write _ => 0

theorem count_expected (kind : Kind) (r : Handled) :
    (expected r.msg r.result).count kind = if tells kind r then 1 else 0 := by
  unfold tells
  rcases hresult : r.result with exc | ⟨_ | _ | reason⟩
  · cases kind <;> simp [expected, isAck, isError, isSilent]
  · by_cases herror : r.msg.msgType = .error <;>
      cases kind <;> simp [expected, isAck, isError, isSilent, herror]
  · cases htype : r.msg.msgType <;>
      cases kind <;> simp [expected, ackKinds, isAck, isError, isSilent, htype]
  · cases hrefused : refusedUnread r.msg <;>
      cases kind <;> simp [expected, isAck, isError, isSilent, hrefused]

/-- What took effect was answered or lost. -/
theorem took_eq (kind : Kind) (x : Exchange Call fun k => Answer k.Result) :
    took kind x = (kindOf x).toList.count kind + lostOf kind x := by
  obtain ⟨k, result | exc | text⟩ := x
  · cases hkind : k.kind? with
    | none => simp [took, kindOf, lostOf, Answer.applied, hkind]
    | some kind' =>
      by_cases heq : kind' = kind <;>
        simp [took, kindOf, lostOf, Answer.applied, hkind, heq]
  · simp [took, kindOf, lostOf, Answer.applied]
  · simp [took, kindOf, lostOf, Answer.applied]

section Told

variable {g : Gateway} {w : Worker Nat GwProto.Message Call (fun k => Answer k.Result) Exc
  Wire.Buffers (Option Response)}

/-- The receipts of a handler that has come so far are told of what it
inserted. -/
theorem told_receipts {kind : Kind} {msg : GwProto.Message} {past : Trace}
    {p : Program Call (fun k => Answer k.Result) (Except Exc (Option Response) × Wire.Buffers)}
    (hmeets : Program.Meets (Asked g msg w.memory)
      (fun t (ending : Except Exc (Option Response) × Wire.Buffers) =>
        kinds t = expected msg ending.1 ∧ Remembers g msg t w.memory ending.2) past p) :
    sumOver (fun r => if tells kind r then 1 else 0) (w.receipts msg past p) =
      (kinds past).count kind := by
  cases p with
  | done ending =>
    have hkinds := hmeets.1
    have hcount := count_expected kind (⟨w.id, msg, w.memory, past, ending.1, ending.2⟩ : Handled)
    simp only [Worker.receipts, sumOver, Nat.add_zero]
    rw [hkinds]
    exact hcount.symm
  | call k next =>
    rw [Worker.receipts, hmeets.1.1]
    rfl

theorem told_receive (kind : Kind) (msg : GwProto.Message) :
    sumOver (fun r => if tells kind r then 1 else 0) ((service g).handled w (.receive msg)) =
      0 := by
  dsimp only [Service.handled]
  split
  · exact told_receipts (dispatch_meets g msg w.memory)
  · rfl
  · rfl

/-- An answer makes the handler tell of the insert that it answers. -/
theorem told_answer (kind : Kind) (hpath : (service g).OnPath w)
    (f : ∀ k : Call, Answer k.Result) :
    sumOver (fun r => if tells kind r then 1 else 0) ((service g).handled w (.answer f)) =
      sumOver (fun x => (kindOf x).toList.count kind) (Service.exchanged w (.answer f)) := by
  dsimp only [Service.handled, Service.exchanged]
  cases hactivity : w.activity with
  | idle => rfl
  | gone => rfl
  | busy msg past k next =>
    obtain ⟨hasked, hnext⟩ := hpath.meets (dispatch_meets g) hactivity
    dsimp only
    rw [told_receipts (hnext (f k)), kinds_concat, hasked.1]
    simp [sumOver]

end Told

/-! ## Runs -/

/-- The handlers have come to where they are. -/
def OnPaths (g : Gateway) (s : System) : Prop := ∀ w ∈ s.connections.rows, (service g).OnPath w

theorem onPaths_step {g : Gateway} {s : System} (h : OnPaths g s) (e : Event) :
    OnPaths g (step g s e) := by
  have hstep : ∀ (ws : Connections) e', (∀ w ∈ ws.rows, (service g).OnPath w) →
      ∀ w ∈ ((service g).step ws e').rows, (service g).OnPath w :=
    fun _ e' hws => Service.onPath_step hws e'
  exact run_invariant hstep h (serverEvents g s e)

theorem onPaths_init (g : Gateway) : OnPaths g {} := fun _ hw => absurd hw List.not_mem_nil

/-- What the event tells the senders. -/
def told (g : Gateway) (kind : Kind) (s : System) (e : Event) : Nat :=
  sumOver (fun r => if tells kind r then 1 else 0)
    (outputs (service g).step (Service.ofMove (service g).handled) s.connections
      (serverEvents g s e))

theorem outputs_singleton {σ ε α : Type} (step : σ → ε → σ) (out : σ → ε → List α) (s : σ)
    (e : ε) : outputs step out s [e] = out s e := List.append_nil _

/-- What an event carries out, it tells the sender of, or nobody. -/
theorem took_exchange (g : Gateway) (kind : Kind) {s : System} (h : OnPaths g s) (e : Event) :
    sumOver (took kind) (exchange s e) = told g kind s e + unseen kind s e := by
  have hclosed : ∀ id last, told g kind s (.close id last) = 0 := by
    intro id last
    unfold told serverEvents
    rw [outputs_singleton, Service.ofMove]
    split <;> rfl
  cases e with
  | connect id => rfl
  | write w => rfl
  | frame id msgType payload =>
    have htold : told g kind s (.frame id msgType payload) = 0 := by
      dsimp only [told, serverEvents]
      split
      · rw [outputs_singleton, Service.ofMove]
        split
        · exact told_receive kind _
        · rfl
      · rw [outputs_singleton, Service.ofMove]
        split <;> rfl
    rw [htold]
    rfl
  | answer id c =>
    unfold told serverEvents
    rw [outputs_singleton, Service.ofMove]
    have htook : sumOver (took kind) (exchange s (.answer id c)) =
        sumOver (fun x => (kindOf x).toList.count kind) (s.exchanged id c) +
          unseen kind s (.answer id c) := by
      dsimp only [exchange, unseen, System.exchanged]
      cases s.pending id with
      | none => rfl
      | some k =>
        simp only [sumOver, Nat.add_zero]
        exact took_eq kind _
    rw [htook]
    refine congrArg (· + _) ?_
    unfold System.exchanged System.pending
    cases hfind : s.connections.find? id with
    | none => rfl
    | some w =>
      have hw := h w (Table.find?_eq_some_iff.mp hfind).1
      dsimp only
      rw [told_answer kind hw]
      obtain ⟨wid, memory, activity⟩ := w
      cases activity <;> rfl
  | close id last =>
    rw [hclosed]
    cases last with
    | none => rfl
    | some c => exact (Nat.zero_add _).symm

/-- The rows that there are and those that were deleted are the messages whose
end stands for one, and the inserts that nobody was told of. -/
theorem rows_balance (g : Gateway) (kind : Kind) (events : List Event) :
    rowCount kind (run (step g) {} events).db +
        total (step g) (deletedRows kind) {} events =
      ((receipts g events).filter (tells kind)).length +
        total (step g) (unseen kind) {} events := by
  have hstep : ∀ (s : System) e, rowCount kind (step g s e).db + deletedRows kind s e =
      rowCount kind s.db + sumOver (took kind) (exchange s e) :=
    fun s e => rowCount_dbAfter kind s e
  have hrows := run_balance (fun s : System => rowCount kind s.db) hstep {} events
  have htook := total_congr (OnPaths g) (fun s e h => onPaths_step h e)
    (fun s e h => took_exchange g kind h e) (onPaths_init g) events
  rw [total_add] at htook
  have htold : total (step g) (told g kind) {} events =
      ((receipts g events).filter (tells kind)).length := by
    have hreceipts : receipts g events = outputs (step g) (fun s e =>
        outputs (service g).step (Service.ofMove (service g).handled) s.connections
          (serverEvents g s e)) {} events :=
      outputs_outputs System.connections (fun _ _ => rfl) _ {} events
    rw [hreceipts, ← sumOver_ite]
    exact total_sumOver _ _ _ _ _
  have hempty : rowCount kind ({} : System).db = 0 := by
    cases kind <;> rfl
  omega

end DustMonitoring.Ingestion.Standard
