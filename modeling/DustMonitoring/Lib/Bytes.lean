import Mathlib.Data.Nat.Digits.Lemmas

/-!
# Byte strings

Fixed-width unsigned integers in both byte orders, records of them, ASCII
text, and a reader that hands out an exact number of bytes of a stream.

* `toLittle w n` are the `w` low bytes of `n`, least significant first;
  `fromLittle` reads such a list back.  `toBig` and `fromBig` are the same
  with the most significant byte first.
* `ByteOrder.pack` puts integers of given widths one after the other, and
  `ByteOrder.unpack` reads them back.
* `Reader` is the receiving end of a stream: the bytes that arrive, and
  what comes after the last of them.  How the bytes are cut into segments
  on the way does not show, because `readExactly` waits until it has what
  it was asked for.
-/

namespace DustMonitoring.Lib

/-! ## Unsigned integers -/

/-- The integer whose bytes, least significant first, are `bs`. -/
def fromLittle (bs : List UInt8) : Nat := Nat.ofDigits 256 (bs.map UInt8.toNat)

/-- The integer whose bytes, most significant first, are `bs`. -/
def fromBig (bs : List UInt8) : Nat := fromLittle bs.reverse

/-- The `w` low bytes of `n`, least significant first. -/
def toLittle : Nat → Nat → List UInt8
  | 0, _ => []
  | w + 1, n => UInt8.ofNat n :: toLittle w (n / 256)

/-- The `w` low bytes of `n`, most significant first. -/
def toBig (w n : Nat) : List UInt8 := (toLittle w n).reverse

@[simp] theorem fromLittle_nil : fromLittle [] = 0 := rfl

@[simp] theorem fromLittle_cons (b : UInt8) (bs : List UInt8) :
    fromLittle (b :: bs) = b.toNat + 256 * fromLittle bs := by
  simp [fromLittle, Nat.ofDigits_cons]

@[simp] theorem length_toLittle (w n : Nat) : (toLittle w n).length = w := by
  induction w generalizing n with
  | zero => rfl
  | succ w ih => rw [toLittle, List.length_cons, ih]

@[simp] theorem length_toBig (w n : Nat) : (toBig w n).length = w := by
  rw [toBig, List.length_reverse, length_toLittle]

theorem fromLittle_toLittle (w n : Nat) :
    fromLittle (toLittle w n) = n % 256 ^ w := by
  induction w generalizing n with
  | zero => simp [toLittle, Nat.mod_one]
  | succ w ih =>
    rw [toLittle, fromLittle_cons, ih, pow_succ', Nat.mod_mul,
      UInt8.toNat_ofNat']

theorem fromLittle_toLittle_of_lt {w n : Nat} (h : n < 256 ^ w) :
    fromLittle (toLittle w n) = n := by
  rw [fromLittle_toLittle, Nat.mod_eq_of_lt h]

theorem fromBig_toBig_of_lt {w n : Nat} (h : n < 256 ^ w) :
    fromBig (toBig w n) = n := by
  rw [fromBig, toBig, List.reverse_reverse, fromLittle_toLittle_of_lt h]

theorem fromLittle_lt (bs : List UInt8) : fromLittle bs < 256 ^ bs.length := by
  induction bs with
  | nil => simp
  | cons b bs ih =>
    have hb : b.toNat < 256 := b.toNat_lt
    rw [fromLittle_cons, List.length_cons, Nat.pow_succ]
    omega

/-- Every byte string is the encoding of the integer it is read as. -/
theorem toLittle_fromLittle (bs : List UInt8) :
    toLittle bs.length (fromLittle bs) = bs := by
  induction bs with
  | nil => rfl
  | cons b bs ih =>
    have hb : b.toNat < 256 := b.toNat_lt
    have hdiv : (b.toNat + 256 * fromLittle bs) / 256 = fromLittle bs := by omega
    have hbyte : UInt8.ofNat (b.toNat + 256 * fromLittle bs) = b := by
      apply UInt8.toNat_inj.mp
      rw [UInt8.toNat_ofNat']
      omega
    rw [fromLittle_cons, List.length_cons, toLittle, hdiv, hbyte, ih]

theorem fromBig_lt (bs : List UInt8) : fromBig bs < 256 ^ bs.length := by
  rw [fromBig, ← List.length_reverse]
  exact fromLittle_lt bs.reverse

theorem toBig_fromBig (bs : List UInt8) : toBig bs.length (fromBig bs) = bs := by
  rw [toBig, fromBig, ← List.length_reverse, toLittle_fromLittle, List.reverse_reverse]

/-- A little-endian `uint32` read in the other byte order. -/
theorem fromBig_toLittle_four (n : Nat) :
    fromBig (toLittle 4 n) =
      n / 16777216 % 256 + 256 * (n / 65536 % 256) +
        65536 * (n / 256 % 256) + 16777216 * (n % 256) := by
  simp only [fromBig, toLittle, List.reverse_cons, List.reverse_nil,
    List.nil_append, List.cons_append, fromLittle_cons, fromLittle_nil,
    UInt8.toNat_ofNat', Nat.div_div_eq_div_mul, Nat.reduceMul, Nat.reducePow]
  omega

/-! ## Packed records -/

inductive ByteOrder
  | little
  | big

namespace ByteOrder

def encode : ByteOrder → Nat → Nat → List UInt8
  | little => toLittle
  | big => toBig

def decode : ByteOrder → List UInt8 → Nat
  | little => fromLittle
  | big => fromBig

theorem length_encode (o : ByteOrder) (w n : Nat) :
    (o.encode w n).length = w := by
  cases o with
  | little => exact length_toLittle w n
  | big => exact length_toBig w n

theorem decode_encode (o : ByteOrder) {w n : Nat} (h : n < 256 ^ w) :
    o.decode (o.encode w n) = n := by
  cases o with
  | little => exact fromLittle_toLittle_of_lt h
  | big => exact fromBig_toBig_of_lt h

theorem decode_lt (o : ByteOrder) (bs : List UInt8) :
    o.decode bs < 256 ^ bs.length := by
  cases o with
  | little => exact fromLittle_lt bs
  | big => exact fromBig_lt bs

theorem encode_decode (o : ByteOrder) (bs : List UInt8) :
    o.encode bs.length (o.decode bs) = bs := by
  cases o with
  | little => exact toLittle_fromLittle bs
  | big => exact toBig_fromBig bs

/-- The fields, each with its width in front of its value, one after the
other.  There is nothing when a value does not fit its width. -/
def pack (o : ByteOrder) (fields : List (Nat × Nat)) : Option (List UInt8) :=
  if ∀ f ∈ fields, f.2 < 256 ^ f.1 then
    some (fields.flatMap fun f => o.encode f.1 f.2)
  else none

/-- The values of fields of the given widths. -/
def unpack (o : ByteOrder) : List Nat → List UInt8 → List Nat
  | [], _ => []
  | w :: ws, bs => o.decode (bs.take w) :: unpack o ws (bs.drop w)

theorem unpack_of_pack {o : ByteOrder} {fields : List (Nat × Nat)}
    {bs : List UInt8} (h : o.pack fields = some bs) :
    o.unpack (fields.map Prod.fst) bs = fields.map Prod.snd := by
  unfold pack at h
  split at h
  · next hfits =>
    obtain rfl := Option.some.inj h
    clear h
    induction fields with
    | nil => rfl
    | cons f fs ih =>
      have hlen := o.length_encode f.1 f.2
      rw [List.flatMap_cons, List.map_cons, unpack, List.take_left' hlen,
        List.drop_left' hlen, o.decode_encode (hfits f List.mem_cons_self),
        ih fun g hg => hfits g (List.mem_cons_of_mem f hg)]
      rfl
  · contradiction

theorem length_of_pack {o : ByteOrder} {fields : List (Nat × Nat)}
    {bs : List UInt8} (h : o.pack fields = some bs) :
    bs.length = (fields.map Prod.fst).sum := by
  unfold pack at h
  split at h
  · obtain rfl := Option.some.inj h
    rw [List.length_flatMap]
    simp only [length_encode]
  · contradiction

/-- Fields that are read off a byte string are packed to that byte
string. -/
theorem pack_of_unpack (o : ByteOrder) {fields : List (Nat × Nat)} {bs : List UInt8}
    (hlen : bs.length = (fields.map Prod.fst).sum)
    (h : o.unpack (fields.map Prod.fst) bs = fields.map Prod.snd) :
    o.pack fields = some bs := by
  have hparts : (∀ f ∈ fields, f.2 < 256 ^ f.1) ∧
      (fields.flatMap fun f => o.encode f.1 f.2) = bs := by
    induction fields generalizing bs with
    | nil =>
      have hnil : bs = [] := List.eq_nil_of_length_eq_zero hlen
      subst hnil
      exact ⟨by simp, rfl⟩
    | cons f fs ih =>
      rw [List.map_cons, List.sum_cons] at hlen
      rw [List.map_cons, List.map_cons, unpack, List.cons.injEq] at h
      have htake : (bs.take f.1).length = f.1 := List.length_take_of_le (by omega)
      have hdrop : (bs.drop f.1).length = (fs.map Prod.fst).sum := by
        rw [List.length_drop]
        omega
      obtain ⟨hfits, hrest⟩ := ih hdrop h.2
      constructor
      · intro g hg
        rcases List.mem_cons.mp hg with rfl | hg
        · have hlt := o.decode_lt (bs.take g.1)
          rw [h.1, htake] at hlt
          exact hlt
        · exact hfits g hg
      · have hfront : o.encode f.1 f.2 = bs.take f.1 := by
          have hencode := o.encode_decode (bs.take f.1)
          rw [h.1, htake] at hencode
          exact hencode
        rw [List.flatMap_cons, hrest, hfront, List.take_append_drop]
  unfold pack
  rw [if_pos hparts.1, hparts.2]

end ByteOrder

/-! ## ASCII text -/

/-- The text with the given ASCII codes, if all of them are below 128. -/
def decodeAscii (bs : List UInt8) : Option String :=
  if bs.all (· < 128) then
    some (String.ofList (bs.map fun b => Char.ofNat b.toNat))
  else none

/-- The codes of a text.  Only meant for texts all of whose characters are
ASCII. -/
def encodeAscii (s : String) : List UInt8 :=
  s.toList.map fun ch => UInt8.ofNat ch.toNat

theorem toNat_charOfNat {n : Nat} (h : n < 128) : (Char.ofNat n).toNat = n := by
  have hvalid : n.isValidChar := Or.inl (by omega)
  rw [Char.ofNat, dif_pos hvalid]
  rfl

/-- Decoded bytes are the codes of the text. -/
theorem encodeAscii_of_decodeAscii {bs : List UInt8} {s : String}
    (h : decodeAscii bs = some s) : encodeAscii s = bs := by
  unfold decodeAscii at h
  split at h
  · next hall =>
    obtain rfl := Option.some.inj h
    rw [encodeAscii, String.toList_ofList, List.map_map]
    calc bs.map ((fun ch => UInt8.ofNat ch.toNat) ∘ fun b => Char.ofNat b.toNat)
        = bs.map id := by
          apply List.map_congr_left
          intro b hb
          have hlt : b < 128 := of_decide_eq_true (List.all_eq_true.mp hall b hb)
          rw [Function.comp_apply, toNat_charOfNat (UInt8.lt_iff_toNat_lt.mp hlt),
            UInt8.ofNat_toNat]
          rfl
      _ = bs := List.map_id bs
  · contradiction

/-! ## Reading a stream -/

/-- What follows the last byte that arrives: the peer closes the stream,
or it leaves the stream open and sends nothing more. -/
inductive Tail
  | closed
  | stalled
  deriving DecidableEq

/-- The receiving end of a stream. -/
structure Reader where
  bytes : List UInt8
  tail : Tail
  deriving DecidableEq

/-- Why a read does not return: the stream ended before enough bytes had
come, or they never come. -/
inductive ReadError
  | incomplete (got : List UInt8)
  | blocked
  deriving DecidableEq

namespace Reader

/-- The next `n` bytes and the rest of the stream. -/
def readExactly (n : Nat) (r : Reader) :
    Except ReadError (List UInt8 × Reader) :=
  if n ≤ r.bytes.length then
    .ok (r.bytes.take n, { r with bytes := r.bytes.drop n })
  else
    match r.tail with
    | .closed => .error (.incomplete r.bytes)
    | .stalled => .error .blocked

theorem readExactly_append {n : Nat} {xs ys : List UInt8} (t : Tail)
    (h : xs.length = n) :
    readExactly n ⟨xs ++ ys, t⟩ = .ok (xs, ⟨ys, t⟩) := by
  subst h
  simp [readExactly]

/-- A read of more than there is does not return. -/
theorem readExactly_of_length_lt {n : Nat} {r : Reader}
    (h : r.bytes.length < n) :
    r.readExactly n = match r.tail with
      | .closed => .error (.incomplete r.bytes)
      | .stalled => .error .blocked := by
  rw [readExactly, if_neg (by omega)]

/-- A read that returns hands out a prefix of the stream. -/
theorem readExactly_eq_ok {n : Nat} {r r' : Reader} {xs : List UInt8}
    (h : r.readExactly n = .ok (xs, r')) :
    xs.length = n ∧ r.bytes = xs ++ r'.bytes ∧ r'.tail = r.tail := by
  unfold readExactly at h
  split at h
  · next hn =>
    obtain ⟨rfl, rfl⟩ := Prod.mk.inj (Except.ok.inj h)
    exact ⟨List.length_take_of_le hn, (List.take_append_drop n _).symm, rfl⟩
  · split at h <;> contradiction

end Reader

end DustMonitoring.Lib
