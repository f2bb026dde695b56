import DustMonitoring.Lib.Receiver

/-!
# Frames of the gateway protocol

`framing.py` with the types of `messages.py` and the errors of `errors.py`.
A frame is eight header bytes, the length of the payload and the message
type as big-endian `uint32`, and then the payload.  `readFrame` takes one
frame off a stream, and `receiver` does so until it raises.
-/

namespace DustMonitoring.GwProto

open Lib

/-! ## Message types -/

/-- `MessageType`. -/
inductive MessageType
  | videoChunk
  | videoComplete
  | sensorSample
  | analysisResult
  | alert
  | heartbeat
  | ack
  | error
  deriving DecidableEq, Repr

namespace MessageType

def value : MessageType → Nat
  | videoChunk => 0x0001
  | videoComplete => 0x0002
  | sensorSample => 0x0010
  | analysisResult => 0x0100
  | alert => 0x0101
  | heartbeat => 0x0F00
  | ack => 0x0F01
  | error => 0x0FFF

def all : List MessageType :=
  [videoChunk, videoComplete, sensorSample, analysisResult, alert, heartbeat,
    ack, error]

/-- `MessageType(raw_type)`, which raises for a number that is no type. -/
def ofValue? (raw : Nat) : Option MessageType := all.find? (·.value = raw)

@[simp] theorem ofValue?_value (t : MessageType) : ofValue? t.value = some t := by
  cases t <;> rfl

theorem value_lt (t : MessageType) : t.value < 256 ^ 4 := by
  cases t <;> decide

end MessageType

/-! ## Errors -/

/-- The errors of `read_frame`, with the data their messages show. -/
inductive ProtoError
  | headerTimeout
  | headerIncomplete (got : Nat)
  | payloadTooLarge (length : Nat)
  | unknownMessageType (raw : Nat)
  | payloadTimeout
  | payloadIncomplete (expected got : Nat)
  deriving DecidableEq

/-- Whether the error is a `FramingError`.  A timeout is a
`ConnectionTimeout`, an unknown type a `CodecError`. -/
def ProtoError.isFramingError : ProtoError → Bool
  | headerIncomplete _ | payloadTooLarge _ | payloadIncomplete _ _ => true
  | headerTimeout | payloadTimeout | unknownMessageType _ => false

/-! ## Frames -/

/-- `MAX_PAYLOAD_SIZE`, 512 MiB. -/
def maxPayloadSize : Nat := 512 * 1024 * 1024

def headerSize : Nat := 8

/-- A message type and a payload. -/
structure Frame where
  msgType : MessageType
  payload : List UInt8
  deriving DecidableEq

/-- `HEADER_STRUCT.pack`, the format `"!II"`.  There is nothing when the
length does not fit (`struct.error`). -/
def packHeader (payloadLength rawType : Nat) : Option (List UInt8) :=
  ByteOrder.big.pack [(4, payloadLength), (4, rawType)]

/-- `HEADER_STRUCT.unpack`. -/
def unpackHeader (header : List UInt8) : Nat × Nat :=
  (fromBig (header.take 4), fromBig ((header.drop 4).take 4))

/-- What `write_frame` appends to the stream. -/
def encode (f : Frame) : Option (List UInt8) :=
  (packHeader f.payload.length f.msgType.value).map (· ++ f.payload)

/-- The payload read of `read_frame`. -/
def readPayload (msgType : MessageType) (payloadLength : Nat) (r : Reader) :
    Except ProtoError (Frame × Reader) :=
  if payloadLength = 0 then
    .ok (⟨msgType, []⟩, r)
  else
    match r.readExactly payloadLength with
    | .error .blocked => .error .payloadTimeout
    | .error (.incomplete got) =>
      .error (.payloadIncomplete payloadLength got.length)
    | .ok (payload, rest) => .ok (⟨msgType, payload⟩, rest)

/-- `read_frame`. -/
def readFrame (r : Reader) : Except ProtoError (Frame × Reader) :=
  match r.readExactly headerSize with
  | .error .blocked => .error .headerTimeout
  | .error (.incomplete got) => .error (.headerIncomplete got.length)
  | .ok (header, r') =>
    let (payloadLength, rawType) := unpackHeader header
    if payloadLength > maxPayloadSize then
      .error (.payloadTooLarge payloadLength)
    else
      match MessageType.ofValue? rawType with
      | none => .error (.unknownMessageType rawType)
      | some msgType => readPayload msgType payloadLength r'

theorem readPayload_shorter {msgType : MessageType} {payloadLength : Nat}
    {r rest : Reader} {f : Frame}
    (h : readPayload msgType payloadLength r = .ok (f, rest)) :
    rest.bytes.length ≤ r.bytes.length := by
  unfold readPayload at h
  split at h
  · obtain ⟨-, rfl⟩ := Prod.mk.inj (Except.ok.inj h)
    exact le_refl _
  · split at h
    · contradiction
    · contradiction
    · next hok =>
      obtain ⟨-, rfl⟩ := Prod.mk.inj (Except.ok.inj h)
      rw [(Reader.readExactly_eq_ok hok).2.1, List.length_append]
      omega

/-- A frame takes a header at least. -/
theorem readFrame_shorter {r rest : Reader} {f : Frame}
    (h : readFrame r = .ok (f, rest)) : rest.bytes.length < r.bytes.length := by
  unfold readFrame at h
  split at h
  · contradiction
  · contradiction
  · next header r' hhdr =>
    obtain ⟨hlen, hbytes, -⟩ := Reader.readExactly_eq_ok hhdr
    have hle : rest.bytes.length ≤ r'.bytes.length := by
      dsimp only at h
      split at h
      · contradiction
      · split at h
        · contradiction
        · exact readPayload_shorter h
    rw [hbytes, List.length_append, hlen]
    show rest.bytes.length < 8 + r'.bytes.length
    omega

/-- `read_frame` again and again, until it raises. -/
def receiver : Receiver Frame ProtoError where
  round r :=
    match readFrame r with
    | .ok (f, rest) => .deliver f rest
    | .error e => .stop (some e)
  shorter h := by
    split at h
    · next hframe =>
      obtain rfl := Option.some.inj h
      exact readFrame_shorter hframe
    · contradiction

/-! ## Round trip -/

theorem length_of_packHeader {payloadLength rawType : Nat} {header : List UInt8}
    (h : packHeader payloadLength rawType = some header) :
    header.length = headerSize :=
  ByteOrder.length_of_pack h

theorem unpackHeader_packHeader {payloadLength rawType : Nat}
    {header : List UInt8} (h : packHeader payloadLength rawType = some header) :
    unpackHeader header = (payloadLength, rawType) := by
  have hvalues : [fromBig (header.take 4), fromBig ((header.drop 4).take 4)] =
      [payloadLength, rawType] := ByteOrder.unpack_of_pack h
  obtain ⟨hlength, htype⟩ := List.cons.inj hvalues
  rw [unpackHeader, hlength, (List.cons.inj htype).1]

/-- Everything that `read_frame` accepts can be packed. -/
theorem exists_encode {f : Frame} (h : f.payload.length ≤ maxPayloadSize) :
    ∃ header, packHeader f.payload.length f.msgType.value = some header ∧
      encode f = some (header ++ f.payload) := by
  have hlen : f.payload.length < 256 ^ 4 := lt_of_le_of_lt h (by decide)
  have hfits : ∀ g ∈ [(4, f.payload.length), (4, f.msgType.value)],
      g.2 < 256 ^ g.1 := by
    simp only [List.forall_mem_cons]
    exact ⟨hlen, f.msgType.value_lt, by simp⟩
  have hpack : packHeader f.payload.length f.msgType.value = some _ := if_pos hfits
  exact ⟨_, hpack, by rw [encode, hpack]; rfl⟩

section Packed

variable {f : Frame} {header : List UInt8}
  (hpack : packHeader f.payload.length f.msgType.value = some header)
  (hmax : f.payload.length ≤ maxPayloadSize)

include hpack hmax

/-- A packed header within the limit makes `read_frame` go on to the
payload. -/
theorem readFrame_header (rest : List UInt8) (t : Tail) :
    readFrame ⟨header ++ rest, t⟩ =
      readPayload f.msgType f.payload.length ⟨rest, t⟩ := by
  simp only [readFrame,
    Reader.readExactly_append t (length_of_packHeader hpack),
    unpackHeader_packHeader hpack, if_neg (not_lt.mpr hmax),
    MessageType.ofValue?_value]

theorem readFrame_append (rest : List UInt8) (t : Tail) :
    readFrame ⟨header ++ (f.payload ++ rest), t⟩ = .ok (f, ⟨rest, t⟩) := by
  rw [readFrame_header hpack hmax, readPayload]
  by_cases hempty : f.payload.length = 0
  · have hnil : f.payload = [] := List.length_eq_zero_iff.mp hempty
    obtain ⟨msgType, payload⟩ := f
    obtain rfl : payload = [] := hnil
    rfl
  · rw [if_neg hempty, Reader.readExactly_append t rfl]

/-- A frame that the end of the stream cuts is a `FramingError`. -/
theorem readFrame_cut {cut : List UInt8} (hpre : cut <+: header ++ f.payload)
    (hlt : cut.length < (header ++ f.payload).length) :
    ∃ e, e.isFramingError = true ∧ readFrame ⟨cut, .closed⟩ = .error e := by
  rcases cut_cases hpre hlt with hshort | ⟨part, rfl, hpart⟩
  · rw [length_of_packHeader hpack] at hshort
    refine ⟨.headerIncomplete cut.length, rfl, ?_⟩
    simp only [readFrame, Reader.readExactly_of_length_lt
      (r := ⟨cut, .closed⟩) hshort]
  · refine ⟨.payloadIncomplete f.payload.length part.length, rfl, ?_⟩
    rw [readFrame_header hpack hmax, readPayload, if_neg (by omega),
      Reader.readExactly_of_length_lt (r := ⟨part, .closed⟩) hpart]

end Packed

end DustMonitoring.GwProto
