import DustMonitoring.Lib.Bytes

/-!
# The DUST frame header

`codec/loas/dust_framing.py` with the constants it takes from
`codec/loas/constants.py`.  The header has 12 bytes, six little-endian
integers (`struct "<HHBBIH"`), and the XML body follows it.
-/

namespace DustMonitoring.Loas.Dust

open Lib

/-! ## Constants -/

def sopDust : Nat := 0xAABB

def doidDustInspection : Nat := 0xD002

def protocolVersion : Nat := 0x02

def dustHeaderSize : Nat := 12

def dustMaxBody : Nat := 1448

def encryptionNone : Nat := 0

/-! ## The header -/

/-- `DustHeader`. -/
structure DustHeader where
  sop : Nat
  dataObjectId : Nat
  version : Nat
  encryption : Nat
  timestamp : Nat
  length : Nat
  deriving DecidableEq, Repr

/-- `LoasFramingError` and its subclasses, with the data their messages
show. -/
inductive FramingError
  | headerSize (got : Nat)
  | invalidSop (got : Nat)
  | unsupportedDataObjectId (got : Nat)
  | unsupportedVersion (got : Nat)
  | payloadTooLarge (length : Nat)
  deriving DecidableEq

/-- The values of the header with their widths, the format `"<HHBBIH"`. -/
def DustHeader.fields (hdr : DustHeader) : List (Nat × Nat) :=
  [(2, hdr.sop), (2, hdr.dataObjectId), (1, hdr.version), (1, hdr.encryption),
    (4, hdr.timestamp), (2, hdr.length)]

/-- `pack_header`.  There is nothing when a field does not fit
(`struct.error`). -/
def packHeader (hdr : DustHeader) : Option (List UInt8) :=
  ByteOrder.little.pack hdr.fields

/-- `unpack_header`. -/
def unpackHeader (buf : List UInt8) : Except FramingError DustHeader :=
  if buf.length ≠ dustHeaderSize then
    .error (.headerSize buf.length)
  else
    match ByteOrder.little.unpack [2, 2, 1, 1, 4, 2] buf with
    | [sop, doid, ver, enc, ts, length] =>
      .ok ⟨sop, doid, ver, enc, ts, length⟩
    -- Six widths give six values.
    | _ => .error (.headerSize buf.length)

/-- `validate_header`.  The encryption byte is not looked at. -/
def validateHeader (hdr : DustHeader) : Except FramingError Unit :=
  if hdr.sop ≠ sopDust then
    .error (.invalidSop hdr.sop)
  else if hdr.dataObjectId ≠ doidDustInspection then
    .error (.unsupportedDataObjectId hdr.dataObjectId)
  else if hdr.version ≠ protocolVersion then
    .error (.unsupportedVersion hdr.version)
  else if hdr.length > dustMaxBody then
    .error (.payloadTooLarge hdr.length)
  else .ok ()

/-- `is_encrypted`. -/
def isEncrypted (hdr : DustHeader) : Bool := hdr.encryption != encryptionNone

/-! ## Round trip -/

theorem length_of_packHeader {hdr : DustHeader} {buf : List UInt8}
    (h : packHeader hdr = some buf) : buf.length = dustHeaderSize :=
  ByteOrder.length_of_pack h

/-- What `pack_header` writes, `unpack_header` reads back. -/
theorem unpackHeader_packHeader {hdr : DustHeader} {buf : List UInt8}
    (h : packHeader hdr = some buf) : unpackHeader buf = .ok hdr := by
  have hvalues : ByteOrder.little.unpack [2, 2, 1, 1, 4, 2] buf =
      hdr.fields.map Prod.snd := ByteOrder.unpack_of_pack h
  rw [unpackHeader, if_neg (not_not.mpr (length_of_packHeader h)), hvalues]
  rfl

end DustMonitoring.Loas.Dust
