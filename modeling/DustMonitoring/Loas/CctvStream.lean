import DustMonitoring.Lib.Receiver
import DustMonitoring.Loas.CctvServer

/-!
# Streams of CCTV frames

The loop of `LoasCctvTcpServer._on_connect` with the handler it awaits, on
any stream: frames packed by `pack_header` and cut anywhere, and frames in
front of a header that is not one.

## Main result

* `delivers_complete`: the handler is called on the frames that are complete before
  the cut, in order and whether its calls raise or not, and on nothing from
  a bad header on.
-/

namespace DustMonitoring.Loas

open Lib

/-- The loop of `_on_connect`. -/
def receiver (maxBody : Nat) : Receiver Frame ExitReason where
  round r :=
    match round maxBody r with
    | .frame f rest => .deliver f rest
    | .exit reason => .stop (some reason)
    | .waiting => .stop none
  shorter h := by
    split at h
    · next hround =>
      obtain rfl := Option.some.inj h
      exact round_shorter hround
    · contradiction
    · contradiction

/-- `_on_connect` with the handler it awaits. -/
def serve {σ : Type*} (onFrame : σ → Frame → σ × CallEnd) (maxBody : Nat)
    (s : σ) (r : Reader) : Served σ Frame ExitReason :=
  (receiver maxBody).serve onFrame s r

/-- What comes off the stream is the session. -/
theorem received_eq_onConnect (maxBody : Nat) (r : Reader) :
    (receiver maxBody).received r =
      ⟨(onConnect maxBody r).calls, (onConnect maxBody r).exit?⟩ := by
  fun_induction onConnect maxBody r with
  | case1 r f rest h s ih =>
    have hround : (receiver maxBody).round r = .deliver f rest := by
      simp only [receiver, h]
    rw [Receiver.received_deliver hround, ih]
  | case2 r reason h =>
    have hround : (receiver maxBody).round r = .stop (some reason) := by
      simp only [receiver, h]
    rw [Receiver.received_stop hround]
  | case3 r h =>
    have hround : (receiver maxBody).round r = .stop none := by
      simp only [receiver, h]
    rw [Receiver.received_stop hround]

/-! ## Frames on the wire -/

/-- A frame as it is on the wire. -/
structure WireFrame where
  headerBuf : List UInt8
  frame : Frame
  deriving DecidableEq

namespace WireFrame

def bytes (w : WireFrame) : List UInt8 := w.headerBuf ++ w.frame.body

/-- The header is what `pack_header` makes of the frame. -/
def Packed (w : WireFrame) : Prop :=
  packHeader ⟨w.frame.resolution, w.frame.body.length⟩ = .ok w.headerBuf

/-- The server reads the header as that of the frame. -/
def Accepted (maxBody : Nat) (w : WireFrame) : Prop :=
  ∃ hdr, unpackHeader w.headerBuf = .ok hdr ∧
    hdr.resolution = w.frame.resolution ∧
    bodyLength maxBody w.headerBuf hdr = some w.frame.body.length

end WireFrame

/-- A header the server gives up at: its tag is not ASCII or not known, or
both readings of its length are over the limit. -/
def BadHeader (maxBody : Nat) (headerBuf : List UInt8) : Prop :=
  headerBuf.length = cctvHeaderSize ∧
    ((∀ tag ∈ decodeAscii (headerBuf.take cctvTagSize), tag ∉ resolutionTags) ∨
      (maxBody < fromBig (headerBuf.drop cctvTagSize) ∧
        maxBody < fromLittle (headerBuf.drop cctvTagSize)))

/-- A packed header is read as it was meant: its length is within the limit
in network order. -/
theorem WireFrame.Packed.accepted {maxBody : Nat} {w : WireFrame}
    (h : w.Packed) (hmax : w.frame.body.length ≤ maxBody) :
    w.Accepted maxBody := by
  refine ⟨_, unpackHeader_packHeader h, rfl, ?_⟩
  exact if_neg (not_lt.mpr hmax)

theorem length_of_unpackHeader {buf : List UInt8} {hdr : CctvHeader}
    (h : unpackHeader buf = .ok hdr) : buf.length = cctvHeaderSize := by
  unfold unpackHeader at h
  split at h
  · contradiction
  · next hlen => exact not_not.mp hlen

/-- The round that meets an accepted header goes on to the body. -/
theorem WireFrame.Accepted.round_eq {maxBody : Nat} {w : WireFrame}
    (h : w.Accepted maxBody) (rest : List UInt8) (t : Tail) :
    round maxBody ⟨w.headerBuf ++ rest, t⟩ =
      readBody w.frame.resolution w.frame.body.length ⟨rest, t⟩ := by
  obtain ⟨hdr, hhdr, hres, hlen⟩ := h
  unfold round
  rw [Reader.readExactly_append t (length_of_unpackHeader hhdr)]
  simp only [hhdr, hlen, hres]

/-- A round that is short of header bytes ends the loop. -/
theorem round_short {maxBody : Nat} {r : Reader}
    (h : r.bytes.length < cctvHeaderSize) :
    ∃ reason?, (receiver maxBody).round r = .stop reason? := by
  simp only [receiver, round, Reader.readExactly_of_length_lt h]
  cases r.tail with
  | closed => exact ⟨_, rfl⟩
  | stalled => exact ⟨_, rfl⟩

/-- So does one that is short of body bytes. -/
theorem readBody_short {resolution : String} {length : Nat} {r : Reader}
    (h : r.bytes.length < length) :
    ∃ reason, readBody resolution length r = .exit reason := by
  rw [readBody, Reader.readExactly_of_length_lt h]
  cases r.tail with
  | closed => exact ⟨_, rfl⟩
  | stalled => exact ⟨_, rfl⟩

theorem WireFrame.Accepted.reads {maxBody : Nat} {w : WireFrame}
    (h : w.Accepted maxBody) (t : Tail) :
    (receiver maxBody).Reads WireFrame.bytes (fun w => some w.frame) t
      (fun _ => True) w where
  whole rest := by
    have hround : round maxBody ⟨w.bytes ++ rest, t⟩ =
        .frame w.frame ⟨rest, t⟩ := by
      rw [WireFrame.bytes, List.append_assoc, h.round_eq, readBody,
        Reader.readExactly_append t rfl]
    simp only [receiver, hround]
    rfl
  cut cut hpre hlt := by
    obtain ⟨hdr, hhdr, -⟩ := id h
    rcases cut_cases hpre hlt with hshort | ⟨part, rfl, hpart⟩
    · rw [length_of_unpackHeader hhdr] at hshort
      obtain ⟨reason?, hstop⟩ := round_short (r := ⟨cut, t⟩) hshort
      exact ⟨reason?, trivial, hstop⟩
    · obtain ⟨reason, hexit⟩ : ∃ reason, readBody w.frame.resolution
          w.frame.body.length ⟨part, t⟩ = .exit reason := readBody_short hpart
      refine ⟨some reason, trivial, ?_⟩
      simp only [receiver, h.round_eq, hexit]

/-- The round that meets a bad header ends the loop. -/
theorem BadHeader.round_eq {maxBody : Nat} {headerBuf : List UInt8}
    (h : BadHeader maxBody headerBuf) (rest : List UInt8) (t : Tail) :
    ∃ reason?,
      (receiver maxBody).round ⟨headerBuf ++ rest, t⟩ = .stop reason? := by
  obtain ⟨hlen, hbad⟩ := h
  simp only [receiver, round, Reader.readExactly_append t hlen]
  cases hhdr : unpackHeader headerBuf with
  | error e => exact ⟨_, rfl⟩
  | ok hdr =>
    rw [unpackHeader, if_neg (not_not.mpr hlen)] at hhdr
    cases htag : decodeAscii (headerBuf.take cctvTagSize) with
    | none =>
      rw [htag] at hhdr
      contradiction
    | some tag =>
      rw [htag] at hhdr hbad
      by_cases hknown : tag ∈ resolutionTags
      · have hok : (⟨tag, fromBig (headerBuf.drop cctvTagSize)⟩ : CctvHeader) =
            hdr := by
          simpa [hknown] using hhdr
        have hlarge := hbad.resolve_left fun h => h tag rfl hknown
        have hnone : bodyLength maxBody headerBuf hdr = none := by
          rw [← hok, bodyLength, if_pos hlarge.1]
          exact if_neg (not_le.mpr hlarge.2)
        simp only [hnone]
        exact ⟨_, rfl⟩
      · simp [hknown] at hhdr

/-- Of a stream of packed frames that is cut after any number of bytes, the
handler gets the frames that are complete, each once, in order and with its
exact body.  Of a stream with a bad header it gets the frames in front of
that, and nothing else. -/
theorem delivers_complete {σ : Type*} (onFrame : σ → Frame → σ × CallEnd)
    (maxBody : Nat) (s : σ) (t : Tail) :
    (∀ (sent : List WireFrame) (k : Nat),
        (∀ w ∈ sent, w.Packed ∧ w.frame.body.length ≤ maxBody) →
        (serve onFrame maxBody s
          ⟨(sent.flatMap WireFrame.bytes).take k, t⟩).calls =
            (complete WireFrame.bytes sent k).map WireFrame.frame) ∧
      ∀ (sent : List WireFrame) (bad rest : List UInt8),
        (∀ w ∈ sent, w.Accepted maxBody) → BadHeader maxBody bad →
        (serve onFrame maxBody s
          ⟨sent.flatMap WireFrame.bytes ++ (bad ++ rest), t⟩).calls =
            sent.map WireFrame.frame := by
  constructor
  · intro sent k hsent
    have hreads : ∀ w ∈ sent, (receiver maxBody).Reads WireFrame.bytes
        (fun w => some w.frame) t (fun _ => True) w :=
      fun w hw => ((hsent w hw).1.accepted (hsent w hw).2).reads t
    have hnil : ∃ reason?, True ∧
        (receiver maxBody).round ⟨[], t⟩ = .stop reason? := by
      obtain ⟨reason?, hstop⟩ :=
        round_short (r := ⟨[], t⟩) (show 0 < 9 by decide)
      exact ⟨reason?, trivial, hstop⟩
    rw [serve, Receiver.calls_serve, (Receiver.received_take hreads hnil k).1]
    exact congrFun List.filterMap_eq_map _
  · intro sent bad rest hsent hbad
    have hwhole : ∀ w ∈ sent, ∀ rest, (receiver maxBody).round
        ⟨w.bytes ++ rest, t⟩ = .ofFrame (some w.frame) ⟨rest, t⟩ :=
      fun w hw => ((hsent w hw).reads t).whole
    obtain ⟨reason?, hstop⟩ := hbad.round_eq rest t
    rw [serve, Receiver.calls_serve, Receiver.received_append hwhole,
      Receiver.received_stop hstop]
    show sent.filterMap (fun w => some w.frame) ++ [] = _
    rw [List.append_nil]
    exact congrFun List.filterMap_eq_map _

/-- The frame `f` with its length in network order. -/
def packedFrame (f : Frame) : WireFrame :=
  ⟨encodeAscii f.resolution ++ toBig 4 f.body.length, f⟩

/-- The second of two frames lacks a byte.  A tag that is not known comes
after one. -/
theorem delivers_complete_cut :
    let one : Frame := ⟨"V720p", [255, 216]⟩
    let two : Frame := ⟨"V1080", [255, 216, 0]⟩
    let raising : Nat → Frame → Nat × CallEnd := fun n _ => (n + 1, .raised)
    (serve raising 16 0
        ⟨([one, two].map packedFrame |>.flatMap WireFrame.bytes).take 22,
          .closed⟩).calls = [one] ∧
      (serve raising 16 0
        ⟨([two].map packedFrame |>.flatMap WireFrame.bytes) ++
          (encodeAscii "V2160" ++ [0, 0, 0, 1] ++ [7]), .stalled⟩).calls =
            [two] := by
  intro one two raising
  constructor
  · apply ((delivers_complete raising 16 0 .closed).1 _ 22 _).trans
    · decide
    · intro w hw
      rcases List.mem_pair.mp hw with rfl | rfl
      · exact ⟨by unfold WireFrame.Packed; decide, by decide⟩
      · exact ⟨by unfold WireFrame.Packed; decide, by decide⟩
  · apply (delivers_complete raising 16 0 .stalled).2 _ _ [7]
    · intro w hw
      obtain rfl := List.mem_singleton.mp hw
      exact ⟨⟨"V1080", 3⟩, by decide, by decide, by decide⟩
    · exact ⟨by decide, Or.inl (by decide)⟩

end DustMonitoring.Loas
