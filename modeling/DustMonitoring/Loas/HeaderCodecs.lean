import DustMonitoring.Loas.CctvFraming
import DustMonitoring.Loas.DustFraming

/-!
# Packing and unpacking headers

`pack_header` and `unpack_header` of both framings, with headers as a caller
may build them: their fields are integers of any size and sign.

Main results:

* `Dust.unpackHeader_packValues`, `Dust.packValues_unpackHeader` -- each of
  the two undoes the other on DUST headers whose fields fit and on strings
  of 12 bytes;
* `unpackHeader_packValues`, `packValues_unpackHeader`,
  `unpackHeader_accepts_iff` -- the same for CCTV headers, and which strings
  are headers;
* `headerCodecs_inverse` -- all of it, with what happens to the other inputs.
-/

namespace DustMonitoring.Loas

open Lib

/-- What a packer or an unpacker raises: an error of the framing, or the
`struct.error` of a value that does not fit its width. -/
inductive Raised (ε : Type)
  | framing (error : ε)
  | structError
  deriving DecidableEq

/-! ## DUST -/

namespace Dust

/-- A `DustHeader` as a caller may build it. -/
structure HeaderValues where
  sop : Int
  dataObjectId : Int
  version : Int
  encryption : Int
  timestamp : Int
  length : Int
  deriving DecidableEq, Repr

def DustHeader.values (hdr : DustHeader) : HeaderValues :=
  ⟨hdr.sop, hdr.dataObjectId, hdr.version, hdr.encryption, hdr.timestamp, hdr.length⟩

/-- The values with their widths, the format `"<HHBBIH"`. -/
def HeaderValues.fields (hdr : HeaderValues) : List (Nat × Int) :=
  [(2, hdr.sop), (2, hdr.dataObjectId), (1, hdr.version), (1, hdr.encryption),
    (4, hdr.timestamp), (2, hdr.length)]

/-- Every field fits its width. -/
def HeaderValues.InRange (hdr : HeaderValues) : Prop :=
  ∀ f ∈ hdr.fields, 0 ≤ f.2 ∧ f.2 < 256 ^ f.1

instance (hdr : HeaderValues) : Decidable hdr.InRange :=
  inferInstanceAs (Decidable (∀ f ∈ hdr.fields, _))

/-- `pack_header`. -/
def packValues (hdr : HeaderValues) : Except (Raised FramingError) (List UInt8) :=
  if hdr.InRange then
    .ok (hdr.fields.flatMap fun f => toLittle f.1 f.2.toNat)
  else .error .structError

/-- On the values of a header that was received, `packValues` is
`packHeader`. -/
theorem packValues_values (hdr : DustHeader) :
    packValues hdr.values = match packHeader hdr with
      | some buf => .ok buf
      | none => .error .structError := by
  have hrange : hdr.values.InRange ↔ ∀ f ∈ hdr.fields, f.2 < 256 ^ f.1 := by
    simp only [HeaderValues.InRange, HeaderValues.fields, DustHeader.values,
      DustHeader.fields, List.forall_mem_cons, List.not_mem_nil, false_implies, implies_true,
      and_true]
    omega
  have hpacked : (hdr.values.fields.flatMap fun f => toLittle f.1 f.2.toNat) =
      hdr.fields.flatMap fun f => ByteOrder.little.encode f.1 f.2 := rfl
  unfold packValues packHeader ByteOrder.pack
  by_cases h : hdr.values.InRange
  · rw [if_pos h, if_pos (hrange.mp h), hpacked]
  · rw [if_neg h, if_neg (mt hrange.mpr h)]

/-- Values that fit are those of a header. -/
theorem HeaderValues.exists_header {hdr : HeaderValues} (h : hdr.InRange) :
    ∃ header : DustHeader, header.values = hdr := by
  cases hdr with
  | mk sop dataObjectId version encryption timestamp length =>
    simp only [HeaderValues.InRange, HeaderValues.fields, List.forall_mem_cons,
      List.not_mem_nil, false_implies, implies_true, and_true] at h
    refine ⟨⟨sop.toNat, dataObjectId.toNat, version.toNat, encryption.toNat,
      timestamp.toNat, length.toNat⟩, ?_⟩
    simp only [DustHeader.values, HeaderValues.mk.injEq]
    omega

theorem unpackHeader_packValues {hdr : HeaderValues} (h : hdr.InRange) :
    ∃ buf header, packValues hdr = .ok buf ∧ unpackHeader buf = .ok header ∧
      header.values = hdr := by
  obtain ⟨header, rfl⟩ := HeaderValues.exists_header h
  have hpacked := packValues_values header
  cases hbuf : packHeader header with
  | none =>
    rw [hbuf, packValues, if_pos h] at hpacked
    simp only [reduceCtorEq] at hpacked
  | some buf =>
    rw [hbuf] at hpacked
    exact ⟨buf, header, hpacked, unpackHeader_packHeader hbuf, rfl⟩

theorem packValues_unpackHeader {buf : List UInt8} (h : buf.length = dustHeaderSize) :
    ∃ header, unpackHeader buf = .ok header ∧ packValues header.values = .ok buf := by
  let widths := [2, 2, 1, 1, 4, 2]
  obtain ⟨header, hheader, hvalues⟩ : ∃ header, unpackHeader buf = .ok header ∧
      ByteOrder.little.unpack widths buf = header.fields.map Prod.snd := by
    rw [unpackHeader, if_neg (not_not.mpr h)]
    exact ⟨_, rfl, rfl⟩
  have hpacked : packHeader header = some buf :=
    ByteOrder.pack_of_unpack .little h hvalues
  refine ⟨header, hheader, ?_⟩
  rw [packValues_values, hpacked]

theorem unpackHeader_of_length_ne {buf : List UInt8} (h : buf.length ≠ dustHeaderSize) :
    unpackHeader buf = .error (.headerSize buf.length) := if_pos h

end Dust

/-! ## CCTV -/

/-- A `CctvHeader` as a caller may build it. -/
structure CctvHeaderValues where
  resolution : String
  length : Int
  deriving DecidableEq

def CctvHeader.values (hdr : CctvHeader) : CctvHeaderValues :=
  ⟨hdr.resolution, hdr.length⟩

/-- A tag that the framing knows, and a length of 32 bits. -/
def CctvHeaderValues.InRange (hdr : CctvHeaderValues) : Prop :=
  hdr.resolution ∈ resolutionTags ∧ 0 ≤ hdr.length ∧ hdr.length < 2 ^ 32

/-- `pack_header`. -/
def packValues (hdr : CctvHeaderValues) : Except (Raised FramingError) (List UInt8) :=
  if hdr.resolution ∉ resolutionTags then
    .error (.framing (.unknownResolution hdr.resolution))
  else
    let tag := encodeAscii hdr.resolution
    if tag.length ≠ cctvTagSize then
      .error (.framing (.tagWidth tag.length))
    else if 0 ≤ hdr.length ∧ hdr.length < 256 ^ 4 then
      .ok (tag ++ toBig 4 hdr.length.toNat)
    else
      .error (.framing (.lengthOutOfRange hdr.length))

/-- On the values of a header that was received, `packValues` is
`packHeader`. -/
theorem packValues_values (hdr : CctvHeader) :
    packValues hdr.values = (packHeader hdr).mapError Raised.framing := by
  have hlength : (0 ≤ (hdr.length : Int) ∧ (hdr.length : Int) < 256 ^ 4) ↔
      hdr.length < 256 ^ 4 := by
    omega
  unfold packValues packHeader
  simp only [CctvHeader.values, hlength, Int.toNat_natCast]
  split
  · rfl
  · split
    · rfl
    · split <;> rfl

theorem unpackHeader_packValues {hdr : CctvHeaderValues} (h : hdr.InRange) :
    ∃ buf header, packValues hdr = .ok buf ∧ unpackHeader buf = .ok header ∧
      header.values = hdr := by
  obtain ⟨htag, hnonneg, hlt⟩ := h
  have hheader : (⟨hdr.resolution, hdr.length.toNat⟩ : CctvHeader).values = hdr := by
    cases hdr
    simp only [CctvHeader.values, CctvHeaderValues.mk.injEq, true_and]
    exact Int.toNat_of_nonneg hnonneg
  have hpacked : packHeader ⟨hdr.resolution, hdr.length.toNat⟩ =
      .ok (encodeAscii hdr.resolution ++ toBig 4 hdr.length.toNat) := by
    unfold packHeader
    rw [if_neg (not_not.mpr htag)]
    dsimp only
    rw [if_neg (not_not.mpr (length_encodeAscii_tag htag)), if_pos (by omega)]
  refine ⟨_, ⟨hdr.resolution, hdr.length.toNat⟩, ?_, unpackHeader_packHeader hpacked,
    hheader⟩
  rw [← hheader, packValues_values, hpacked]
  rfl

/-- What is accepted is a tag with four bytes behind it. -/
theorem unpackHeader_eq_ok {buf : List UInt8} {header : CctvHeader}
    (h : unpackHeader buf = .ok header) :
    buf.length = cctvHeaderSize ∧ header.resolution ∈ resolutionTags ∧
      buf.take cctvTagSize = encodeAscii header.resolution ∧
      header.length = fromBig (buf.drop cctvTagSize) := by
  unfold unpackHeader at h
  split at h
  · contradiction
  · next hlen =>
    split at h
    · contradiction
    · next tag hdecode =>
      split at h
      · contradiction
      · next htag =>
        obtain rfl := Except.ok.inj h
        exact ⟨not_not.mp hlen, not_not.mp htag,
          (encodeAscii_of_decodeAscii hdecode).symm, rfl⟩

theorem packValues_unpackHeader {buf : List UInt8} {header : CctvHeader}
    (h : unpackHeader buf = .ok header) : packValues header.values = .ok buf := by
  obtain ⟨hlen, htag, htake, hlength⟩ := unpackHeader_eq_ok h
  have hdrop : (buf.drop cctvTagSize).length = 4 := by
    rw [List.length_drop, hlen]
    rfl
  have hlt := fromBig_lt (buf.drop cctvTagSize)
  rw [hdrop, ← hlength] at hlt
  have hbytes : toBig 4 header.length = buf.drop cctvTagSize := by
    rw [hlength, ← hdrop, toBig_fromBig]
  rw [packValues_values, packHeader, if_neg (not_not.mpr htag)]
  dsimp only
  rw [if_neg (not_not.mpr (length_encodeAscii_tag htag)), if_pos hlt, hbytes, ← htake,
    List.take_append_drop]
  rfl

theorem unpackHeader_accepts_iff (buf : List UInt8) :
    (∃ header, unpackHeader buf = .ok header) ↔
      buf.length = cctvHeaderSize ∧
        ∃ tag ∈ resolutionTags, buf.take cctvTagSize = encodeAscii tag := by
  constructor
  · intro ⟨header, h⟩
    obtain ⟨hlen, htag, htake, -⟩ := unpackHeader_eq_ok h
    exact ⟨hlen, header.resolution, htag, htake⟩
  · intro ⟨hlen, tag, htag, htake⟩
    have hdrop : (buf.drop cctvTagSize).length = 4 := by
      rw [List.length_drop, hlen]
      rfl
    have hparts : buf = encodeAscii tag ++ buf.drop cctvTagSize := by
      rw [← htake, List.take_append_drop]
    rw [hparts]
    exact ⟨_, unpackHeader_tag htag hdrop⟩

/-- A header that does not fit is an error of the framing. -/
theorem packValues_of_not_inRange {hdr : CctvHeaderValues} (h : ¬ hdr.InRange) :
    ∃ error, packValues hdr = .error (.framing error) := by
  unfold packValues
  split
  · exact ⟨_, rfl⟩
  · next htag =>
    dsimp only
    split
    · exact ⟨_, rfl⟩
    · rw [if_neg fun hlength => h ⟨not_not.mp htag, hlength.1, by omega⟩]
      exact ⟨_, rfl⟩

/-! ## Both codecs -/

/-- Packing and unpacking undo each other in both framings, CCTV strings are
accepted by their size and tag alone, and all that is refused is refused
with an error of the framing, but for the DUST headers that do not fit. -/
theorem headerCodecs_inverse :
    (∀ hdr : Dust.HeaderValues, hdr.InRange → ∃ buf header,
        Dust.packValues hdr = .ok buf ∧ Dust.unpackHeader buf = .ok header ∧
          header.values = hdr) ∧
      (∀ hdr : Dust.HeaderValues, ¬ hdr.InRange →
        Dust.packValues hdr = .error .structError) ∧
      (∀ buf, buf.length = 12 → ∃ header,
        Dust.unpackHeader buf = .ok header ∧ Dust.packValues header.values = .ok buf) ∧
      (∀ buf, buf.length ≠ 12 → ∃ error, Dust.unpackHeader buf = .error error) ∧
      (∀ hdr : CctvHeaderValues, hdr.InRange → ∃ buf header,
        packValues hdr = .ok buf ∧ unpackHeader buf = .ok header ∧ header.values = hdr) ∧
      (∀ hdr : CctvHeaderValues, ¬ hdr.InRange →
        ∃ error, packValues hdr = .error (.framing error)) ∧
      (∀ buf header, unpackHeader buf = .ok header →
        packValues header.values = .ok buf) ∧
      (∀ buf, (∃ header, unpackHeader buf = .ok header) ↔
        buf.length = 9 ∧ ∃ tag ∈ resolutionTags, buf.take 5 = encodeAscii tag) ∧
      ∀ buf, (¬ (buf.length = 9 ∧ ∃ tag ∈ resolutionTags, buf.take 5 = encodeAscii tag)) →
        ∃ error, unpackHeader buf = .error error := by
  refine ⟨fun _ h => Dust.unpackHeader_packValues h, fun _ h => if_neg h,
    fun _ h => Dust.packValues_unpackHeader h,
    fun _ h => ⟨_, Dust.unpackHeader_of_length_ne h⟩, fun _ h => unpackHeader_packValues h,
    fun _ h => packValues_of_not_inRange h, fun _ _ h => packValues_unpackHeader h,
    unpackHeader_accepts_iff, ?_⟩
  intro buf hrefused
  cases hheader : unpackHeader buf with
  | error error => exact ⟨error, rfl⟩
  | ok header => exact absurd ((unpackHeader_accepts_iff buf).mp ⟨header, hheader⟩) hrefused

/-- A start marker of 17 bits is refused by `struct`, not by the framing. -/
theorem structError_of_wide_sop :
    ¬ ∀ hdr : Dust.HeaderValues, ¬ hdr.InRange →
      ∃ error, Dust.packValues hdr = .error (.framing error) := by
  intro h
  have hwide : ¬ (⟨65536, 0, 0, 0, 0, 0⟩ : Dust.HeaderValues).InRange := by decide
  obtain ⟨error, herror⟩ := h _ hwide
  rw [Dust.packValues, if_neg hwide] at herror
  cases Except.error.inj herror

end DustMonitoring.Loas
