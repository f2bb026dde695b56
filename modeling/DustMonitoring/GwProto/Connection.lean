import DustMonitoring.GwProto.Framing
import DustMonitoring.Lib.Run

/-!
# Two writers on one connection

`TcpServer._on_connect` and `_heartbeat_sender` from `transport/server.py`.
The response path and the heartbeat sender call `write_frame` on the same
`StreamWriter`, without a lock.  `write_frame` hands header and payload to
`write` in one piece and then waits in `drain`, so the other task can write
between the two and not within a frame.

## Main result

* `readFrames_written`: however the two tasks take turns, the other side
  reads the frames in the order of the writes, and of a stream that is cut
  those that are complete, followed by a `FramingError`.
-/

namespace DustMonitoring.GwProto

open Lib

/-! ## The connection -/

/-- The two tasks that write. -/
inductive Writer
  | response
  | heartbeat
  deriving DecidableEq, Repr

/-- Where a task is. -/
inductive WriterState
  | ready
  /-- In the `drain` of `write_frame`. -/
  | draining
  | ended
  deriving DecidableEq, Repr

/-- The bytes handed to the writer so far, and the two tasks. -/
structure Connection where
  stream : List UInt8
  state : Writer → WriterState

namespace Connection

/-- A connection that was accepted a moment ago. -/
def accepted : Connection := ⟨[], fun _ => .ready⟩

def setState (c : Connection) (w : Writer) (state : WriterState) : Connection :=
  { c with
    state := fun v => if v = w then state else c.state v }

/-- `_cleanup_session`: the read loop has ended, and the heartbeat task is
cancelled. -/
def cleanup (c : Connection) : Connection :=
  { c with
    state := fun _ => .ended }

/-- A task ends with an exception.  In the response path that ends the
session as well. -/
def fail (c : Connection) : Writer → Connection
  | .response => c.cleanup
  | .heartbeat => c.setState .heartbeat .ended

end Connection

inductive Event
  /-- The task calls `write_frame`. -/
  | writeFrame (w : Writer) (f : Frame)
  /-- Its `drain` returns. -/
  | drained (w : Writer)
  /-- Its `drain` takes longer than the limit. -/
  | drainTimeout (w : Writer)
  /-- The read loop ends for another reason. -/
  | closed
  deriving DecidableEq

/-- The connection after the event.  A task that is not ready does not call
`write_frame`. -/
def step (c : Connection) : Event → Connection
  | .writeFrame w f =>
    if c.state w = .ready then
      match encode f with
      | none => c.fail w
      | some bytes =>
        { c.setState w .draining with
          stream := c.stream ++ bytes }
    else c
  | .drained w =>
    if c.state w = .draining then c.setState w .ready else c
  | .drainTimeout w => if c.state w = .draining then c.fail w else c
  | .closed => c.cleanup

/-- The frame that the event puts on the stream, with its writer. -/
def wrote (c : Connection) : Event → List (Writer × Frame)
  | .writeFrame w f =>
    if c.state w = .ready ∧ (encode f).isSome then [(w, f)] else []
  | _ => []

/-- The bytes of a frame that was written. -/
def wire (p : Writer × Frame) : List UInt8 := (encode p.2).getD []

@[simp] theorem stream_fail (c : Connection) (w : Writer) :
    (c.fail w).stream = c.stream := by
  cases w <;> rfl

/-- A step appends what it wrote, and nothing in between. -/
theorem stream_step (c : Connection) (e : Event) :
    (step c e).stream = c.stream ++ (wrote c e).flatMap wire := by
  cases e with
  | writeFrame w f =>
    by_cases hready : c.state w = .ready
    · cases hbytes : encode f with
      | none => simp [step, wrote, hready, hbytes]
      | some bytes => simp [step, wrote, wire, hready, hbytes]
    · simp [step, wrote, hready]
  | drained w =>
    simp only [step, wrote, List.flatMap_nil, List.append_nil]
    split <;> rfl
  | drainTimeout w =>
    simp only [step, wrote, List.flatMap_nil, List.append_nil]
    split
    · exact stream_fail c w
    · rfl
  | closed => simp [step, wrote, Connection.cleanup]

/-- The stream holds the frames in the order of the writes. -/
theorem stream_run (c : Connection) (es : List Event) :
    (run step c es).stream =
      c.stream ++ (outputs step wrote c es).flatMap wire := by
  induction es generalizing c with
  | nil => simp [outputs]
  | cons e es ih =>
    rw [run_cons, ih, stream_step, outputs, List.flatMap_append,
      List.append_assoc]

/-- What a run writes, it was called with. -/
theorem mem_of_mem_outputs {c : Connection} {es : List Event} {w : Writer}
    {f : Frame} (h : (w, f) ∈ outputs step wrote c es) :
    .writeFrame w f ∈ es := by
  induction es generalizing c with
  | nil => exact absurd h List.not_mem_nil
  | cons e es ih =>
    rcases List.mem_append.mp h with h | h
    · cases e with
      | writeFrame v g =>
        simp only [wrote] at h
        split at h
        · obtain ⟨rfl, rfl⟩ := Prod.mk.inj (List.mem_singleton.mp h)
          exact List.mem_cons_self
        · exact absurd h List.not_mem_nil
      | drained v => exact absurd h List.not_mem_nil
      | drainTimeout v => exact absurd h List.not_mem_nil
      | closed => exact absurd h List.not_mem_nil
    · exact List.mem_cons_of_mem e (ih h)

/-! ## The other side -/

theorem round_whole {p : Writer × Frame}
    (hmax : p.2.payload.length ≤ maxPayloadSize) (t : Tail)
    (rest : List UInt8) :
    receiver.round ⟨wire p ++ rest, t⟩ = .ofFrame (some p.2) ⟨rest, t⟩ := by
  obtain ⟨header, hpack, hencode⟩ := exists_encode hmax
  have hframe := readFrame_append hpack hmax rest t
  simp only [receiver, wire, hencode, Option.getD_some, List.append_assoc,
    hframe]
  rfl

/-- The reason is a `FramingError`. -/
def EndsInFramingError (reason? : Option ProtoError) : Prop :=
  ∃ e, reason? = some e ∧ e.isFramingError = true

theorem reads {p : Writer × Frame}
    (hmax : p.2.payload.length ≤ maxPayloadSize) :
    receiver.Reads wire (fun p => some p.2) .closed EndsInFramingError p where
  whole := round_whole hmax .closed
  cut cut hpre hlt := by
    obtain ⟨header, hpack, hencode⟩ := exists_encode hmax
    simp only [wire, hencode, Option.getD_some] at hpre hlt
    obtain ⟨e, herr, hframe⟩ := readFrame_cut hpack hmax hpre hlt
    exact ⟨some e, ⟨e, rfl, herr⟩, by simp only [receiver, hframe]⟩

/-- After every run of the two writers the other side reads the frames that
were written, in the order of the writes.  When the stream ends after any
number of bytes, it reads those that are complete, and then the read raises
a `FramingError`. -/
theorem readFrames_written (es : List Event)
    (hmax : ∀ w f, .writeFrame w f ∈ es →
      f.payload.length ≤ maxPayloadSize) :
    let c := run step .accepted es
    let written := outputs step wrote .accepted es
    (∀ t, (receiver.received ⟨c.stream, t⟩).frames = written.map Prod.snd) ∧
      ∀ k, (receiver.received ⟨c.stream.take k, .closed⟩).frames =
          (complete wire written k).map Prod.snd ∧
        EndsInFramingError
          (receiver.received ⟨c.stream.take k, .closed⟩).exit? := by
  intro c written
  have hstream : c.stream = written.flatMap wire := stream_run .accepted es
  have hsize : ∀ p ∈ written, p.2.payload.length ≤ maxPayloadSize :=
    fun p hp => hmax p.1 p.2 (mem_of_mem_outputs hp)
  have hsnd : ∀ ps : List (Writer × Frame),
      ps.filterMap (fun p => some p.2) = ps.map Prod.snd :=
    fun ps => congrFun List.filterMap_eq_map ps
  constructor
  · intro t
    have hend : ∃ e, receiver.round ⟨[], t⟩ = .stop (some e) := by
      cases t with
      | closed => exact ⟨.headerIncomplete 0, rfl⟩
      | stalled => exact ⟨.headerTimeout, rfl⟩
    obtain ⟨e, hend⟩ := hend
    have hall := Receiver.received_append
      (fun p hp rest => round_whole (hsize p hp) t rest) []
    rw [List.append_nil, Receiver.received_stop hend] at hall
    rw [hstream, hall]
    exact (List.append_nil _).trans (hsnd written)
  · intro k
    have hnil : ∃ reason?, EndsInFramingError reason? ∧
        receiver.round ⟨[], .closed⟩ = .stop reason? :=
      ⟨some (.headerIncomplete 0), ⟨_, rfl, rfl⟩, rfl⟩
    have htake := Receiver.received_take (fun p hp => reads (hsize p hp)) hnil k
    rw [hstream]
    exact ⟨htake.1.trans (hsnd _), htake.2⟩

/-- A heartbeat is written while the response path drains an ACK, and again
before its ERROR, which the end of the stream cuts. -/
theorem readFrames_written_heartbeat :
    let ack : Frame := ⟨.ack, [123, 125]⟩
    let heartbeat : Frame := ⟨.heartbeat, [123, 125]⟩
    let es : List Event :=
      [.writeFrame .response ack, .writeFrame .heartbeat heartbeat,
        .drained .response, .drained .heartbeat,
        .writeFrame .heartbeat heartbeat, .writeFrame .response ⟨.error, [123]⟩]
    (receiver.received ⟨(run step .accepted es).stream.take 38, .closed⟩).frames =
      [ack, heartbeat, heartbeat] := by
  intro ack heartbeat es
  have hmax : ∀ w f, .writeFrame w f ∈ es →
      f.payload.length ≤ maxPayloadSize := by
    intro w f hf
    have hsmall : f.payload.length ≤ 2 := by
      simp [es, ack, heartbeat] at hf
      rcases hf with ⟨-, rfl⟩ | ⟨-, rfl⟩ | ⟨-, rfl⟩ <;> decide
    exact le_trans hsmall (by decide)
  apply ((readFrames_written es hmax).2 38).1.trans
  decide

end DustMonitoring.GwProto
