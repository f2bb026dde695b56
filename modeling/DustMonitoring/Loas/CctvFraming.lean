import DustMonitoring.Lib.Bytes

/-!
# The CCTV frame header

`codec/loas/cctv_framing.py` with the constants it takes from
`codec/loas/constants.py`.  A frame on the wire is a 9-byte header, five
bytes of resolution tag and a `uint32` length, followed by the JPEG body.
`packHeader` and `unpackHeader` use the big-endian length (`struct "!I"`).
-/

namespace DustMonitoring.Loas

open Lib

/-! ## Constants -/

def cctvHeaderSize : Nat := 9

def cctvTagSize : Nat := 5

def resolutionV1080 : String := "V1080"

def resolutionV720P : String := "V720p"

def resolutionV640P : String := "V640p"

/-- `RESOLUTION_TAGS`. -/
def resolutionTags : List String :=
  [resolutionV1080, resolutionV720P, resolutionV640P]

/-- `CCTV_MAX_BODY`, 16 MiB. -/
def cctvMaxBody : Nat := 16 * 1024 * 1024

/-! ## The header -/

/-- `CctvHeader`. -/
structure CctvHeader where
  resolution : String
  length : Nat
  deriving DecidableEq

/-- `LoasFramingError` and its subclass `UnknownResolutionError`, with the
data their messages show. -/
inductive FramingError
  | headerSize (got : Nat)
  | tagNotAscii (tag : List UInt8)
  | unknownResolution (tag : String)
  | tagWidth (got : Nat)
  | lengthOutOfRange (length : Int)
  deriving DecidableEq

/-- `pack_header`. -/
def packHeader (hdr : CctvHeader) : Except FramingError (List UInt8) :=
  if hdr.resolution ∉ resolutionTags then
    .error (.unknownResolution hdr.resolution)
  else
    let tag := encodeAscii hdr.resolution
    if tag.length ≠ cctvTagSize then
      .error (.tagWidth tag.length)
    else if hdr.length < 256 ^ 4 then
      .ok (tag ++ toBig 4 hdr.length)
    else
      .error (.lengthOutOfRange hdr.length)

/-- `unpack_header`. -/
def unpackHeader (buf : List UInt8) : Except FramingError CctvHeader :=
  if buf.length ≠ cctvHeaderSize then
    .error (.headerSize buf.length)
  else
    match decodeAscii (buf.take cctvTagSize) with
    | none => .error (.tagNotAscii (buf.take cctvTagSize))
    | some tag =>
      if tag ∉ resolutionTags then
        .error (.unknownResolution tag)
      else
        .ok ⟨tag, fromBig (buf.drop cctvTagSize)⟩

/-! ## The tags -/

theorem length_encodeAscii_tag {tag : String} (h : tag ∈ resolutionTags) :
    (encodeAscii tag).length = cctvTagSize := by
  have hall : ∀ t ∈ resolutionTags, (encodeAscii t).length = cctvTagSize := by
    decide
  exact hall tag h

theorem decodeAscii_encodeAscii_tag {tag : String}
    (h : tag ∈ resolutionTags) : decodeAscii (encodeAscii tag) = some tag := by
  have hall : ∀ t ∈ resolutionTags,
      decodeAscii (encodeAscii t) = some t := by
    decide
  exact hall tag h

/-- A header with a known tag is accepted, and its length bytes are read
in network order. -/
theorem unpackHeader_tag {tag : String} {len : List UInt8}
    (htag : tag ∈ resolutionTags) (hlen : len.length = 4) :
    unpackHeader (encodeAscii tag ++ len) = .ok ⟨tag, fromBig len⟩ := by
  have hsize := length_encodeAscii_tag htag
  have htake : (encodeAscii tag ++ len).take cctvTagSize = encodeAscii tag :=
    List.take_left' hsize
  have hdrop : (encodeAscii tag ++ len).drop cctvTagSize = len :=
    List.drop_left' hsize
  have hall : (encodeAscii tag ++ len).length = cctvHeaderSize := by
    rw [List.length_append, hsize, hlen]
    rfl
  rw [unpackHeader, if_neg (not_not.mpr hall), htake, hdrop,
    decodeAscii_encodeAscii_tag htag]
  exact if_neg (not_not.mpr htag)

/-- What `pack_header` writes, `unpack_header` reads back. -/
theorem unpackHeader_packHeader {hdr : CctvHeader} {buf : List UInt8}
    (h : packHeader hdr = .ok buf) : unpackHeader buf = .ok hdr := by
  unfold packHeader at h
  split at h
  · contradiction
  · next htag =>
    have htag := not_not.mp htag
    rw [if_neg (not_not.mpr (length_encodeAscii_tag htag))] at h
    split at h
    · next hlen =>
      obtain rfl := Except.ok.inj h
      rw [unpackHeader_tag htag (length_toBig 4 _), fromBig_toBig_of_lt hlen]
    · contradiction

end DustMonitoring.Loas
