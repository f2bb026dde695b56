import DustMonitoring.Lib.Receiver
import DustMonitoring.Loas.DustFraming

/-!
# The DUST listener

`LoasDustTcpServer._on_connect` from `transport/loas_dust_server.py`: one
connection, from its first byte until the loop returns.  The body of an
encrypted frame is read like any other and then dropped.  The loop peeks at
the bytes after a header it rejects; only the log shows them.

## Main result

* `delivers_plain`: the handler is called on the plain frames that are complete
  before the cut, in order and whether its calls raise or not, and on
  nothing after a header that is rejected.
-/

namespace DustMonitoring.Loas.Dust

open Lib

/-! ## The connection loop -/

/-- One call of `on_frame`. -/
structure Frame where
  hdr : DustHeader
  body : List UInt8
  deriving DecidableEq

/-- Why the loop returns, with what it logs. -/
inductive ExitReason
  | headerIncomplete
  | headerRejected (err : FramingError)
  | bodyTruncated (expected got : Nat)
  deriving DecidableEq

/-- The header that the loop goes on with. -/
def acceptHeader (headerBuf : List UInt8) : Except FramingError DustHeader :=
  match unpackHeader headerBuf with
  | .error e => .error e
  | .ok hdr =>
    match validateHeader hdr with
    | .error e => .error e
    | .ok () => .ok hdr

/-- The body read of one round, and what becomes of the frame. -/
def readBody (hdr : DustHeader) (r : Reader) :
    Receiver.Round Frame ExitReason :=
  match r.readExactly hdr.length with
  | .error (.incomplete got) =>
    .stop (some (.bodyTruncated hdr.length got.length))
  | .error .blocked => .stop none
  | .ok (body, rest) =>
    if isEncrypted hdr then .drop rest else .deliver ⟨hdr, body⟩ rest

/-- One round of the loop in `_on_connect`. -/
def round (r : Reader) : Receiver.Round Frame ExitReason :=
  match r.readExactly dustHeaderSize with
  | .error (.incomplete _) => .stop (some .headerIncomplete)
  | .error .blocked => .stop none
  | .ok (headerBuf, r') =>
    match acceptHeader headerBuf with
    | .error e => .stop (some (.headerRejected e))
    | .ok hdr => readBody hdr r'

theorem readBody_shorter {hdr : DustHeader} {r rest : Reader}
    (h : (readBody hdr r).rest? = some rest) :
    rest.bytes.length ≤ r.bytes.length := by
  unfold readBody at h
  split at h
  · contradiction
  · contradiction
  · next body r' hok =>
    have hrest : r' = rest := by
      split at h <;> exact Option.some.inj h
    rw [(Reader.readExactly_eq_ok hok).2.1, List.length_append, hrest]
    omega

/-- A round that goes on has used up a header at least. -/
theorem round_shorter {r rest : Reader} (h : (round r).rest? = some rest) :
    rest.bytes.length < r.bytes.length := by
  unfold round at h
  split at h
  · contradiction
  · contradiction
  · next headerBuf r' hhdr =>
    obtain ⟨hlen, hbytes, -⟩ := Reader.readExactly_eq_ok hhdr
    have hle : rest.bytes.length ≤ r'.bytes.length := by
      split at h
      · contradiction
      · exact readBody_shorter h
    rw [hbytes, List.length_append, hlen]
    show rest.bytes.length < 12 + r'.bytes.length
    omega

/-- The loop of `_on_connect`. -/
def receiver : Receiver Frame ExitReason where
  round := round
  shorter := round_shorter

/-- `_on_connect` with the handler it awaits. -/
def serve {σ : Type*} (onFrame : σ → Frame → σ × CallEnd) (s : σ) (r : Reader) :
    Served σ Frame ExitReason :=
  receiver.serve onFrame s r

/-! ## Frames on the wire -/

/-- A frame as it is on the wire. -/
structure WireFrame where
  headerBuf : List UInt8
  frame : Frame
  deriving DecidableEq

namespace WireFrame

def bytes (w : WireFrame) : List UInt8 := w.headerBuf ++ w.frame.body

/-- A packed header that passes `validate_header`, and a body of the length
it gives. -/
structure WellFormed (w : WireFrame) : Prop where
  packed : packHeader w.frame.hdr = some w.headerBuf
  valid : validateHeader w.frame.hdr = .ok ()
  length : w.frame.body.length = w.frame.hdr.length

/-- The frame, if it is one for the handler. -/
def plain? (w : WireFrame) : Option Frame :=
  if isEncrypted w.frame.hdr then none else some w.frame

variable {w : WireFrame}

/-- The round that meets a well-formed header goes on to the body. -/
theorem WellFormed.round_eq (h : w.WellFormed) (rest : List UInt8) (t : Tail) :
    round ⟨w.headerBuf ++ rest, t⟩ = readBody w.frame.hdr ⟨rest, t⟩ := by
  have haccept : acceptHeader w.headerBuf = .ok w.frame.hdr := by
    simp only [acceptHeader, unpackHeader_packHeader h.packed, h.valid]
  simp only [round, Reader.readExactly_append t (length_of_packHeader h.packed),
    haccept]

end WireFrame

/-- A round that is short of header bytes ends the loop. -/
theorem round_short {r : Reader} (h : r.bytes.length < dustHeaderSize) :
    ∃ reason?, round r = .stop reason? := by
  simp only [round, Reader.readExactly_of_length_lt h]
  cases r.tail with
  | closed => exact ⟨_, rfl⟩
  | stalled => exact ⟨_, rfl⟩

/-- So does one that is short of body bytes. -/
theorem readBody_short {hdr : DustHeader} {r : Reader}
    (h : r.bytes.length < hdr.length) :
    ∃ reason?, readBody hdr r = .stop reason? := by
  simp only [readBody, Reader.readExactly_of_length_lt h]
  cases r.tail with
  | closed => exact ⟨_, rfl⟩
  | stalled => exact ⟨_, rfl⟩

theorem WireFrame.WellFormed.reads {w : WireFrame} (h : w.WellFormed)
    (t : Tail) :
    receiver.Reads WireFrame.bytes WireFrame.plain? t (fun _ => True) w where
  whole rest := by
    show round _ = _
    rw [WireFrame.bytes, List.append_assoc, h.round_eq, readBody,
      Reader.readExactly_append t h.length]
    show (if isEncrypted w.frame.hdr then _ else _) = _
    unfold WireFrame.plain?
    split <;> rfl
  cut cut hpre hlt := by
    rcases cut_cases hpre hlt with hshort | ⟨part, rfl, hpart⟩
    · rw [length_of_packHeader h.packed] at hshort
      obtain ⟨reason?, hstop⟩ := round_short (r := ⟨cut, t⟩) hshort
      exact ⟨reason?, trivial, hstop⟩
    · rw [h.length] at hpart
      obtain ⟨reason?, hstop⟩ := readBody_short (r := ⟨part, t⟩) hpart
      exact ⟨reason?, trivial, (h.round_eq part t).trans hstop⟩

/-- The round that meets a header that is not valid ends the loop. -/
theorem round_rejected {bad : List UInt8} {hdr : DustHeader}
    {err : FramingError} (hbad : unpackHeader bad = .ok hdr)
    (herr : validateHeader hdr = .error err) (rest : List UInt8) (t : Tail) :
    round ⟨bad ++ rest, t⟩ = .stop (some (.headerRejected err)) := by
  have hlen : bad.length = dustHeaderSize := by
    by_contra hlen
    rw [unpackHeader, if_pos hlen] at hbad
    contradiction
  have haccept : acceptHeader bad = .error err := by
    simp only [acceptHeader, hbad, herr]
  simp only [round, Reader.readExactly_append t hlen, haccept]

/-- Of a stream of frames that is cut after any number of bytes, the handler
gets the plain ones that are complete, each once, in order and with header
and body as they were sent.  Of a stream with a header that is rejected it
gets the plain frames in front of that, and nothing else. -/
theorem delivers_plain {σ : Type*} (onFrame : σ → Frame → σ × CallEnd) (s : σ)
    (t : Tail) :
    (∀ (sent : List WireFrame) (k : Nat), (∀ w ∈ sent, w.WellFormed) →
        (serve onFrame s ⟨(sent.flatMap WireFrame.bytes).take k, t⟩).calls =
          (complete WireFrame.bytes sent k).filterMap WireFrame.plain?) ∧
      ∀ (sent : List WireFrame) (bad rest : List UInt8) (hdr : DustHeader)
        (err : FramingError), (∀ w ∈ sent, w.WellFormed) →
        unpackHeader bad = .ok hdr → validateHeader hdr = .error err →
        (serve onFrame s
          ⟨sent.flatMap WireFrame.bytes ++ (bad ++ rest), t⟩).calls =
            sent.filterMap WireFrame.plain? := by
  constructor
  · intro sent k hsent
    have hreads : ∀ w ∈ sent, receiver.Reads WireFrame.bytes
        WireFrame.plain? t (fun _ => True) w := fun w hw => (hsent w hw).reads t
    have hnil : ∃ reason?, True ∧ receiver.round ⟨[], t⟩ = .stop reason? := by
      obtain ⟨reason?, hstop⟩ := round_short (r := ⟨[], t⟩) (show 0 < 12 by decide)
      exact ⟨reason?, trivial, hstop⟩
    rw [serve, Receiver.calls_serve, (Receiver.received_take hreads hnil k).1]
  · intro sent bad rest hdr err hsent hbad herr
    have hwhole : ∀ w ∈ sent, ∀ rest,
        receiver.round ⟨w.bytes ++ rest, t⟩ = .ofFrame w.plain? ⟨rest, t⟩ :=
      fun w hw => ((hsent w hw).reads t).whole
    have hstop := round_rejected hbad herr rest t
    rw [serve, Receiver.calls_serve, Receiver.received_append hwhole,
      Receiver.received_stop hstop]
    exact List.append_nil _

/-- A frame with the given encryption byte. -/
def sampleFrame (encryption : Nat) (body : List UInt8) : WireFrame :=
  let hdr : DustHeader :=
    { sop := sopDust
      dataObjectId := doidDustInspection
      version := protocolVersion
      encryption := encryption
      timestamp := 1750000000
      length := body.length }
  { headerBuf := (packHeader hdr).getD []
    frame := ⟨hdr, body⟩ }

/-- A plain frame, an encrypted one and a plain one that is cut; and the
same with a header of another version behind it. -/
theorem delivers_plain_cut :
    let plain := sampleFrame 0 [60, 47, 62]
    let encrypted := sampleFrame 1 [1, 2]
    let bad : List UInt8 := [0xBB, 0xAA, 2, 0xD0, 3, 0, 0, 0, 0, 0, 1, 0]
    let raising : Nat → Frame → Nat × CallEnd := fun n _ => (n + 1, .raised)
    (serve raising 0
        ⟨([encrypted, plain, plain].flatMap WireFrame.bytes).take 40,
          .closed⟩).calls = [plain.frame] ∧
      (serve raising 0 ⟨[encrypted, plain].flatMap WireFrame.bytes ++
          (bad ++ [7]), .closed⟩).calls = [plain.frame] := by
  intro plain encrypted bad raising
  have hplain : plain.WellFormed := ⟨by decide, by decide, by decide⟩
  have hencrypted : encrypted.WellFormed := ⟨by decide, by decide, by decide⟩
  constructor
  · apply ((delivers_plain raising 0 .closed).1 _ 40 _).trans
    · decide
    · simp [hplain, hencrypted]
  · apply ((delivers_plain raising 0 .closed).2 _ _ [7] _ _ _ rfl rfl).trans
    · decide
    · simp [hplain, hencrypted]

end DustMonitoring.Loas.Dust
