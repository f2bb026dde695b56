import DustMonitoring.Loas.CctvFraming

/-!
# The CCTV listener

`LoasCctvTcpServer._on_connect` from `transport/loas_cctv_server.py`: one
connection, from its first byte until the loop returns.  The header gives
a big-endian length.  When that is over `max_body` the same four bytes are
read in little-endian order, and only when both are over it does the
server give up.

The frame handler is awaited inside a `try`, and the loop goes on whether
it raises or not, so a session is the list of calls in order.

## Main result

* `delivers_iff`: a stream of frames with little-endian lengths is handed
  over frame by frame exactly when every length reads right.

The guess depends on the length alone.  It is wrong for every multiple of
256 that is not a multiple of 65792, and for 1, because the bytes of such
a length are a plausible length in network order too.
-/

namespace DustMonitoring.Loas

open Lib

/-! ## The connection loop -/

/-- One call of `on_frame`. -/
structure Frame where
  resolution : String
  body : List UInt8
  deriving DecidableEq

/-- `exit_reason`, with the number its text shows. -/
inductive ExitReason
  | peerEofClean
  | peerEofPartialHeader (got : Nat)
  | headerRejected
  | frameTooLarge
  | bodyTruncated
  | bodyTimeout
  deriving DecidableEq

/-- What one round of the loop does. -/
inductive Round
  | frame (f : Frame) (rest : Reader)
  | exit (reason : ExitReason)
  /-- No header comes, and the header read has no time limit. -/
  | waiting
  deriving DecidableEq

/-- What one connection comes to: the calls of the handler, and why the
loop returned if it did. -/
structure Session where
  calls : List Frame
  exit? : Option ExitReason
  deriving DecidableEq

/-- The length that the server goes by, `none` if both readings of the
header are over `maxBody`. -/
def bodyLength (maxBody : Nat) (headerBuf : List UInt8) (hdr : CctvHeader) :
    Option Nat :=
  if hdr.length > maxBody then
    let lengthLe := fromLittle (headerBuf.drop cctvTagSize)
    if lengthLe ≤ maxBody then some lengthLe else none
  else
    some hdr.length

/-- The body read of one round. -/
def readBody (resolution : String) (length : Nat) (r : Reader) : Round :=
  match r.readExactly length with
  | .error (.incomplete _) => .exit .bodyTruncated
  | .error .blocked => .exit .bodyTimeout
  | .ok (body, rest) => .frame ⟨resolution, body⟩ rest

/-- One round of the loop in `_on_connect`. -/
def round (maxBody : Nat) (r : Reader) : Round :=
  match r.readExactly cctvHeaderSize with
  | .error (.incomplete got) =>
    .exit (if got.length = 0 then .peerEofClean
      else .peerEofPartialHeader got.length)
  | .error .blocked => .waiting
  | .ok (headerBuf, r') =>
    match unpackHeader headerBuf with
    | .error _ => .exit .headerRejected
    | .ok hdr =>
      match bodyLength maxBody headerBuf hdr with
      | none => .exit .frameTooLarge
      | some length => readBody hdr.resolution length r'

theorem readBody_eq_frame {resolution : String} {length : Nat}
    {r rest : Reader} {f : Frame}
    (h : readBody resolution length r = .frame f rest) :
    f.body.length = length ∧ r.bytes = f.body ++ rest.bytes := by
  unfold readBody at h
  split at h
  · contradiction
  · contradiction
  · next body r' hok =>
    obtain ⟨hlen, hbytes, -⟩ := Reader.readExactly_eq_ok hok
    obtain ⟨rfl, rfl⟩ := Round.frame.inj h
    exact ⟨hlen, hbytes⟩

/-- A round that hands over a frame has used up a header at least. -/
theorem round_shorter {maxBody : Nat} {r rest : Reader} {f : Frame}
    (h : round maxBody r = .frame f rest) :
    rest.bytes.length < r.bytes.length := by
  unfold round at h
  split at h
  · contradiction
  · contradiction
  · next headerBuf r' hhdr =>
    obtain ⟨hlen, hbytes, -⟩ := Reader.readExactly_eq_ok hhdr
    have hle : rest.bytes.length ≤ r'.bytes.length := by
      split at h
      · contradiction
      · split at h
        · contradiction
        · rw [(readBody_eq_frame h).2, List.length_append]
          omega
    rw [hbytes, List.length_append, hlen]
    show rest.bytes.length < 9 + r'.bytes.length
    omega

/-- `_on_connect`. -/
def onConnect (maxBody : Nat) (r : Reader) : Session :=
  match _h : round maxBody r with
  | .frame f rest =>
    let s := onConnect maxBody rest
    { s with calls := f :: s.calls }
  | .exit reason => ⟨[], some reason⟩
  | .waiting => ⟨[], none⟩
termination_by r.bytes.length
decreasing_by exact round_shorter ‹_›

theorem onConnect_frame {maxBody : Nat} {r rest : Reader} {f : Frame}
    (h : round maxBody r = .frame f rest) :
    (onConnect maxBody r).calls = f :: (onConnect maxBody rest).calls := by
  rw [onConnect]
  split
  · next f' rest' h' =>
    obtain ⟨rfl, rfl⟩ := Round.frame.inj (h.symm.trans h')
    rfl
  · next h' => exact absurd (h.symm.trans h') (by simp)
  · next h' => exact absurd (h.symm.trans h') (by simp)

theorem onConnect_exit {maxBody : Nat} {r : Reader} {reason : ExitReason}
    (h : round maxBody r = .exit reason) :
    onConnect maxBody r = ⟨[], some reason⟩ := by
  rw [onConnect]
  split
  · next h' => exact absurd (h.symm.trans h') (by simp)
  · next h' =>
    obtain rfl := Round.exit.inj (h.symm.trans h')
    rfl
  · next h' => exact absurd (h.symm.trans h') (by simp)

theorem onConnect_waiting {maxBody : Nat} {r : Reader}
    (h : round maxBody r = .waiting) : onConnect maxBody r = ⟨[], none⟩ := by
  rw [onConnect]
  split
  · next h' => exact absurd (h.symm.trans h') (by simp)
  · next h' => exact absurd (h.symm.trans h') (by simp)
  · rfl

/-! ## A little-endian sender -/

/-- The frame as a sender puts it on the wire that does not convert the
length to network order. -/
def wireLittle (f : Frame) : List UInt8 :=
  encodeAscii f.resolution ++ toLittle 4 f.body.length ++ f.body

/-- A known tag, and a body that is not empty nor over the limit. -/
structure Frame.WellFormed (f : Frame) : Prop where
  tag : f.resolution ∈ resolutionTags
  nonempty : 1 ≤ f.body.length
  bounded : f.body.length ≤ cctvMaxBody

/-- The length the server goes by when a sender wrote `n` little-endian. -/
def guessed (n : Nat) : Nat :=
  if fromBig (toLittle 4 n) > cctvMaxBody then n else fromBig (toLittle 4 n)

/-- The lengths whose little-endian bytes the server reads right. -/
def ReadsRight (n : Nat) : Prop :=
  (n % 256 ≠ 0 ∧ n ≠ 1) ∨ n % 65792 = 0

instance (n : Nat) : Decidable (ReadsRight n) :=
  inferInstanceAs (Decidable (_ ∨ _))

/-- With a low byte of zero, the two readings agree when the middle bytes
are the same and the top byte is zero as well. -/
theorem mod_65792_eq_zero_iff {b₁ b₂ b₃ n : Nat} (h₁ : b₁ < 256)
    (h₂ : b₂ < 256) (h₃ : b₃ < 256)
    (hn : n = 256 * b₁ + 65536 * b₂ + 16777216 * b₃) (hle : n ≤ 16777216) :
    n % 65792 = 0 ↔ b₁ = b₂ ∧ b₃ = 0 := by
  constructor
  · intro h
    obtain ⟨q, hq⟩ : ∃ q, n = 65792 * q := ⟨n / 65792, by omega⟩
    have htop : b₃ = 0 := by omega
    subst htop
    have hq' : b₁ + 256 * b₂ = 257 * q := by omega
    have hmid : q = b₂ := by omega
    omega
  · intro h
    have hq : n = 65792 * b₁ := by omega
    rw [hq]
    exact Nat.mul_mod_right 65792 _

/-- The guess is right when the low byte pushes the other reading over the
limit, and when the length reads the same both ways. -/
theorem guessed_eq_iff {n : Nat} (hpos : 1 ≤ n) (hle : n ≤ cctvMaxBody) :
    guessed n = n ↔ ReadsRight n := by
  have hmax : cctvMaxBody = 16777216 := rfl
  unfold guessed ReadsRight
  rw [fromBig_toLittle_four, hmax]
  rw [hmax] at hle
  have hn : n = n % 256 + 256 * (n / 256 % 256) +
      65536 * (n / 65536 % 256) + 16777216 * (n / 16777216 % 256) := by
    omega
  have h₀ : n % 256 < 256 := Nat.mod_lt n (by decide)
  have h₁ : n / 256 % 256 < 256 := Nat.mod_lt _ (by decide)
  have h₂ : n / 65536 % 256 < 256 := Nat.mod_lt _ (by decide)
  have h₃ : n / 16777216 % 256 < 256 := Nat.mod_lt _ (by decide)
  generalize n % 256 = b₀ at *
  generalize n / 256 % 256 = b₁ at *
  generalize n / 65536 % 256 = b₂ at *
  generalize n / 16777216 % 256 = b₃ at *
  by_cases hlow : b₀ = 0
  · subst hlow
    have hsame := mod_65792_eq_zero_iff h₁ h₂ h₃ (by omega) hle
    rw [if_neg (by omega), hsame]
    omega
  · split
    · omega
    · omega

theorem bodyLength_little {tag : String} {n : Nat}
    (htag : tag ∈ resolutionTags) (hle : n ≤ cctvMaxBody) :
    bodyLength cctvMaxBody (encodeAscii tag ++ toLittle 4 n)
      ⟨tag, fromBig (toLittle 4 n)⟩ = some (guessed n) := by
  have hn : n < 256 ^ 4 := lt_of_le_of_lt hle (by decide)
  have hdrop : (encodeAscii tag ++ toLittle 4 n).drop cctvTagSize =
      toLittle 4 n := List.drop_left' (length_encodeAscii_tag htag)
  unfold bodyLength guessed
  rw [hdrop, fromLittle_toLittle_of_lt hn, if_pos hle]
  split <;> rfl

/-- The round that meets a little-endian frame reads its header, and then
as many bytes as it guesses. -/
theorem round_wireLittle {f : Frame} (hf : f.WellFormed) (rest : List UInt8)
    (t : Tail) :
    round cctvMaxBody ⟨wireLittle f ++ rest, t⟩ =
      readBody f.resolution (guessed f.body.length) ⟨f.body ++ rest, t⟩ := by
  have hlen : (encodeAscii f.resolution ++
      toLittle 4 f.body.length).length = cctvHeaderSize := by
    rw [List.length_append, length_encodeAscii_tag hf.tag, length_toLittle]
    rfl
  unfold round wireLittle
  rw [List.append_assoc, Reader.readExactly_append t hlen]
  show (match unpackHeader _ with
    | .error _ => Round.exit .headerRejected
    | .ok hdr => _) = _
  rw [unpackHeader_tag hf.tag (length_toLittle 4 _)]
  show (match bodyLength _ _ _ with
    | none => Round.exit .frameTooLarge
    | some length => _) = _
  rw [bodyLength_little hf.tag hf.bounded]

theorem calls_wireLittle_of_readsRight {f : Frame} (hf : f.WellFormed)
    (h : ReadsRight f.body.length) (rest : List UInt8) (t : Tail) :
    (onConnect cctvMaxBody ⟨wireLittle f ++ rest, t⟩).calls =
      f :: (onConnect cctvMaxBody ⟨rest, t⟩).calls := by
  apply onConnect_frame
  rw [round_wireLittle hf, (guessed_eq_iff hf.nonempty hf.bounded).mpr h,
    readBody, Reader.readExactly_append t rfl]

/-- A length read wrong either cuts the stream off, or hands over a body of
another length. -/
theorem calls_wireLittle_ne {f : Frame} (hf : f.WellFormed)
    (h : ¬ ReadsRight f.body.length) (rest : List UInt8) (t : Tail)
    (more : List Frame) :
    (onConnect cctvMaxBody ⟨wireLittle f ++ rest, t⟩).calls ≠ f :: more := by
  have hguess : guessed f.body.length ≠ f.body.length := by
    intro heq
    exact h ((guessed_eq_iff hf.nonempty hf.bounded).mp heq)
  cases hr : round cctvMaxBody ⟨wireLittle f ++ rest, t⟩ with
  | frame g r =>
    rw [onConnect_frame hr]
    rw [round_wireLittle hf] at hr
    intro heq
    obtain ⟨rfl, -⟩ := List.cons.inj heq
    exact hguess (readBody_eq_frame hr).1.symm
  | exit reason =>
    rw [onConnect_exit hr]
    exact (List.cons_ne_nil f more).symm
  | waiting =>
    rw [onConnect_waiting hr]
    exact (List.cons_ne_nil f more).symm

/-- An empty stream makes no call. -/
theorem calls_nil (t : Tail) :
    (onConnect cctvMaxBody ⟨[], t⟩).calls = [] := by
  cases t with
  | closed =>
    have h : round cctvMaxBody ⟨[], .closed⟩ = .exit .peerEofClean := by
      decide
    rw [onConnect_exit h]
  | stalled =>
    have h : round cctvMaxBody ⟨[], .stalled⟩ = .waiting := by decide
    rw [onConnect_waiting h]

/-- Frames with little-endian lengths arrive as they were sent, every one
once and in order, exactly when every length reads right. -/
theorem delivers_iff (frames : List Frame) (t : Tail)
    (hwf : ∀ f ∈ frames, f.WellFormed) :
    (onConnect cctvMaxBody ⟨frames.flatMap wireLittle, t⟩).calls = frames ↔
      ∀ f ∈ frames, ReadsRight f.body.length := by
  induction frames with
  | nil => simp [calls_nil]
  | cons f fs ih =>
    have hf := hwf f List.mem_cons_self
    have ih := ih fun g hg => hwf g (List.mem_cons_of_mem f hg)
    rw [List.flatMap_cons, List.forall_mem_cons]
    by_cases hr : ReadsRight f.body.length
    · rw [calls_wireLittle_of_readsRight hf hr, ← ih]
      simp [hr]
    · have hne := calls_wireLittle_ne hf hr (fs.flatMap wireLittle) t fs
      exact iff_of_false hne fun h => hr h.1

theorem delivers_iff_twoFrames :
    (onConnect cctvMaxBody ⟨[⟨"V720p", [255, 216]⟩, ⟨"V1080", [255, 216, 0]⟩].flatMap
      wireLittle, .closed⟩).calls =
        [⟨"V720p", [255, 216]⟩, ⟨"V1080", [255, 216, 0]⟩] := by
  refine (delivers_iff _ .closed ?_).mpr (by decide)
  intro f hf
  rcases List.mem_pair.mp hf with rfl | rfl
  · exact ⟨by decide, by decide, by decide⟩
  · exact ⟨by decide, by decide, by decide⟩

/-- A JPEG of 256 bytes is announced as `00 01 00 00`, read as 65536, and
never handed over. -/
def blankFrame : Frame := ⟨resolutionV720P, List.replicate 256 255⟩

theorem not_delivers_blankFrame :
    blankFrame.WellFormed ∧
      (onConnect cctvMaxBody ⟨[blankFrame].flatMap wireLittle, .closed⟩).calls ≠
        [blankFrame] := by
  have hlen : blankFrame.body.length = 256 := List.length_replicate
  have hwf : blankFrame.WellFormed := by
    refine ⟨by decide, ?_, ?_⟩
    · rw [hlen]
      decide
    · rw [hlen]
      decide
  have hwrong : ¬ ReadsRight blankFrame.body.length := by
    rw [hlen]
    decide
  exact ⟨hwf, calls_wireLittle_ne hwf hwrong [] .closed []⟩

end DustMonitoring.Loas
