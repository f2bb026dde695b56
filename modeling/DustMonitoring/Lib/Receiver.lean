import DustMonitoring.Lib.Bytes

/-!
# Receive loops

A receive loop takes one frame after another off a stream until something
ends it.  A `Receiver` is such a loop given by its round: what one pass
makes of the bytes that are there.

* `received` is what comes off the stream, and why the loop ended.
* `serve` runs the same loop with a handler that is called on every frame
  and may raise; `calls_serve` says that its calls are the frames received,
  whatever the handler does.
* `Reads` says of one frame that the loop takes it off the stream when all
  of it is there, and ends when a part of it is missing.  From this follow
  the stream that is cut anywhere (`received_take`) and the frames in front
  of something else (`received_append`).
-/

namespace DustMonitoring.Lib

/-! ## Frames on a stream -/

section Complete

variable {α : Type*} (wire : α → List UInt8)

/-- The frames all of whose bytes are among the first `k` of the stream. -/
def complete : List α → Nat → List α
  | [], _ => []
  | f :: fs, k =>
    if (wire f).length ≤ k then f :: complete fs (k - (wire f).length) else []

/-- A stream that is cut consists of its complete frames and, unless the cut
falls between two frames, the beginning of one more. -/
theorem exists_take_flatMap (fs : List α) (k : Nat) :
    ∃ cut, (fs.flatMap wire).take k = (complete wire fs k).flatMap wire ++ cut ∧
      (cut = [] ∨ ∃ f ∈ fs, cut <+: wire f ∧ cut.length < (wire f).length) := by
  induction fs generalizing k with
  | nil => exact ⟨[], by simp [complete], Or.inl rfl⟩
  | cons f fs ih =>
    rw [List.flatMap_cons, List.take_append]
    by_cases hk : (wire f).length ≤ k
    · obtain ⟨cut, heq, hcut⟩ := ih (k - (wire f).length)
      refine ⟨cut, ?_, ?_⟩
      · rw [complete, if_pos hk, List.take_of_length_le hk, heq,
          List.flatMap_cons, List.append_assoc]
      · apply hcut.imp_right
        intro h
        obtain ⟨g, hg, hpre⟩ := h
        exact ⟨g, List.mem_cons_of_mem f hg, hpre⟩
    · refine ⟨(wire f).take k, ?_, Or.inr ⟨f, List.mem_cons_self, ?_, ?_⟩⟩
      · have hnone : k - (wire f).length = 0 := by omega
        rw [complete, if_neg hk, hnone, List.take_zero, List.append_nil]
        rfl
      · exact List.take_prefix k (wire f)
      · rw [List.length_take]
        omega

theorem complete_subset (fs : List α) (k : Nat) : complete wire fs k ⊆ fs := by
  induction fs generalizing k with
  | nil => exact List.Subset.refl []
  | cons f fs ih =>
    rw [complete]
    split
    · exact List.cons_subset_cons f (ih _)
    · exact List.nil_subset _

end Complete

/-- A frame of a header and a body is cut within its header, or within its
body. -/
theorem cut_cases {header body cut : List UInt8} (h : cut <+: header ++ body)
    (hlt : cut.length < (header ++ body).length) :
    cut.length < header.length ∨
      ∃ part, cut = header ++ part ∧ part.length < body.length := by
  by_cases hshort : cut.length < header.length
  · exact Or.inl hshort
  · have hheader : header <+: cut :=
      List.prefix_of_prefix_length_le (List.prefix_append header body) h
        (by omega)
    obtain ⟨part, rfl⟩ := hheader
    refine Or.inr ⟨part, rfl, ?_⟩
    rw [List.length_append, List.length_append] at hlt
    omega

/-! ## The loop -/

namespace Receiver

/-- What one round of the loop makes of the bytes that are there. -/
inductive Round (β ε : Type*)
  | deliver (frame : β) (rest : Reader)
  /-- A frame that the loop does not hand over. -/
  | drop (rest : Reader)
  /-- The loop ends.  There is no reason when it waits for bytes that never
  come. -/
  | stop (reason? : Option ε)
  deriving DecidableEq

/-- What the next round reads from. -/
def Round.rest? {β ε : Type*} : Round β ε → Option Reader
  | .deliver _ rest => some rest
  | .drop rest => some rest
  | .stop _ => none

end Receiver

/-- A receive loop.  A round that goes on has used up some bytes. -/
structure Receiver (β ε : Type*) where
  round : Reader → Receiver.Round β ε
  shorter : ∀ {r rest}, (round r).rest? = some rest →
    rest.bytes.length < r.bytes.length

/-- What a loop took off the stream, and why it ended. -/
structure Received (β ε : Type*) where
  frames : List β
  exit? : Option ε
  deriving DecidableEq

/-- How a call of a handler ends. -/
inductive CallEnd
  | returned
  | raised
  deriving DecidableEq

/-- What became of a loop that calls a handler: the last state of the
handler, its calls, and those of them that raised. -/
structure Served (σ β ε : Type*) where
  state : σ
  calls : List β
  failures : List β
  exit? : Option ε

namespace Receiver

variable {α β ε σ : Type*} (R : Receiver β ε)

/-- The frames of the stream. -/
def received (r : Reader) : Received β ε :=
  match _h : R.round r with
  | .deliver f rest =>
    let later := received rest
    { later with frames := f :: later.frames }
  | .drop rest => received rest
  | .stop reason? => ⟨[], reason?⟩
termination_by r.bytes.length
decreasing_by
  · exact R.shorter (congrArg Round.rest? ‹_›)
  · exact R.shorter (congrArg Round.rest? ‹_›)

/-- The loop with a handler that is called on every frame.  What the handler
raises is caught, and the loop goes on. -/
def serve (onFrame : σ → β → σ × CallEnd) (s : σ) (r : Reader) :
    Served σ β ε :=
  match _h : R.round r with
  | .deliver f rest =>
    match onFrame s f with
    | (s', .returned) =>
      let later := serve onFrame s' rest
      { later with calls := f :: later.calls }
    | (s', .raised) =>
      let later := serve onFrame s' rest
      { later with calls := f :: later.calls, failures := f :: later.failures }
  | .drop rest => serve onFrame s rest
  | .stop reason? => ⟨s, [], [], reason?⟩
termination_by r.bytes.length
decreasing_by
  · exact R.shorter (congrArg Round.rest? ‹_›)
  · exact R.shorter (congrArg Round.rest? ‹_›)
  · exact R.shorter (congrArg Round.rest? ‹_›)

variable {R}

theorem received_deliver {r rest : Reader} {f : β}
    (h : R.round r = .deliver f rest) :
    R.received r =
      { R.received rest with frames := f :: (R.received rest).frames } := by
  rw [received]
  split
  · next h' =>
    obtain ⟨rfl, rfl⟩ := Round.deliver.inj (h.symm.trans h')
    rfl
  · next h' => exact absurd (h.symm.trans h') (by simp)
  · next h' => exact absurd (h.symm.trans h') (by simp)

theorem received_drop {r rest : Reader} (h : R.round r = .drop rest) :
    R.received r = R.received rest := by
  rw [received]
  split
  · next h' => exact absurd (h.symm.trans h') (by simp)
  · next h' =>
    obtain rfl := Round.drop.inj (h.symm.trans h')
    rfl
  · next h' => exact absurd (h.symm.trans h') (by simp)

theorem received_stop {r : Reader} {reason? : Option ε}
    (h : R.round r = .stop reason?) : R.received r = ⟨[], reason?⟩ := by
  rw [received]
  split
  · next h' => exact absurd (h.symm.trans h') (by simp)
  · next h' => exact absurd (h.symm.trans h') (by simp)
  · next h' =>
    obtain rfl := Round.stop.inj (h.symm.trans h')
    rfl

/-- A handler that raises neither stops the loop nor skips a frame. -/
theorem calls_serve (onFrame : σ → β → σ × CallEnd) (s : σ) (r : Reader) :
    (R.serve onFrame s r).calls = (R.received r).frames := by
  fun_induction R.serve onFrame s r with
  | case1 s r f rest h s' hcall later ih =>
    rw [received_deliver h]
    exact congrArg (f :: ·) ih
  | case2 s r f rest h s' hcall later ih =>
    rw [received_deliver h]
    exact congrArg (f :: ·) ih
  | case3 s r rest h ih => rw [received_drop h, ih]
  | case4 s r reason? h => rw [received_stop h]

/-! ## Streams of frames -/

/-- The round that meets a whole frame. -/
def Round.ofFrame (emit : Option β) (rest : Reader) : Round β ε :=
  match emit with
  | some f => .deliver f rest
  | none => .drop rest

/-- The loop takes the frame `a` off a stream that holds all of it, to hand
over `emit a` if that is a frame and to drop it if not.  On a stream that
ends within the frame the loop ends too, for a reason that `P` holds of. -/
structure Reads (R : Receiver β ε) (wire : α → List UInt8)
    (emit : α → Option β) (t : Tail) (P : Option ε → Prop) (a : α) : Prop where
  whole : ∀ rest, R.round ⟨wire a ++ rest, t⟩ = .ofFrame (emit a) ⟨rest, t⟩
  cut : ∀ cut, cut <+: wire a → cut.length < (wire a).length →
    ∃ reason?, P reason? ∧ R.round ⟨cut, t⟩ = .stop reason?

variable {wire : α → List UInt8} {emit : α → Option β} {t : Tail}
  {P : Option ε → Prop}

theorem received_append {as : List α}
    (h : ∀ a ∈ as, ∀ rest,
      R.round ⟨wire a ++ rest, t⟩ = .ofFrame (emit a) ⟨rest, t⟩)
    (rest : List UInt8) :
    R.received ⟨as.flatMap wire ++ rest, t⟩ =
      { R.received ⟨rest, t⟩ with
        frames := as.filterMap emit ++ (R.received ⟨rest, t⟩).frames } := by
  induction as with
  | nil => rfl
  | cons a as ih =>
    have ih := ih fun b hb => h b (List.mem_cons_of_mem a hb)
    have hround := h a List.mem_cons_self (as.flatMap wire ++ rest)
    rw [List.flatMap_cons, List.append_assoc]
    cases hemit : emit a with
    | some f =>
      rw [hemit] at hround
      rw [received_deliver hround, ih, List.filterMap_cons_some hemit]
      rfl
    | none =>
      rw [hemit] at hround
      rw [received_drop hround, ih, List.filterMap_cons_none hemit]

/-- Of a stream that is cut anywhere, the loop takes off the frames that are
complete, and ends. -/
theorem received_take {as : List α} (h : ∀ a ∈ as, R.Reads wire emit t P a)
    (hnil : ∃ reason?, P reason? ∧ R.round ⟨[], t⟩ = .stop reason?) (k : Nat) :
    (R.received ⟨(as.flatMap wire).take k, t⟩).frames =
        (complete wire as k).filterMap emit ∧
      P (R.received ⟨(as.flatMap wire).take k, t⟩).exit? := by
  obtain ⟨cut, heq, hcut⟩ := exists_take_flatMap wire as k
  have hstop : ∃ reason?, P reason? ∧ R.round ⟨cut, t⟩ = .stop reason? := by
    cases hcut with
    | inl hempty =>
      rw [hempty]
      exact hnil
    | inr hpart =>
      obtain ⟨a, ha, hpre, hlen⟩ := hpart
      exact (h a ha).cut cut hpre hlen
  obtain ⟨reason?, hP, hround⟩ := hstop
  have hwhole : ∀ a ∈ complete wire as k, ∀ rest,
      R.round ⟨wire a ++ rest, t⟩ = .ofFrame (emit a) ⟨rest, t⟩ :=
    fun a ha => (h a (complete_subset wire as k ha)).whole
  rw [heq, received_append hwhole, received_stop hround]
  exact ⟨List.append_nil _, hP⟩

end Receiver

end DustMonitoring.Lib
