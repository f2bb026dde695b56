import Mathlib.Data.List.Dedup
import Mathlib.Data.List.Perm.Subperm
import DustMonitoring.Ingestion.VideoHandler
import DustMonitoring.Lib.Run

/-!
# What a video upload amounts to

A session handles messages one after the other.  Beside it the chunks of
each video are kept that it has accepted since the buffer of the video was
opened; the buffer is the fold of these chunks (`holds_run`).

## Main result

* `completeSound_iff`: `VIDEO_COMPLETE` acknowledges only complete videos,
  and stores the chunks in their order, exactly when no chunk outside the
  announced range makes up for a missing one.

`is_complete` compares the number of chunks with the announced one, and
`handle_chunk` accepts every sequence number.
-/

namespace DustMonitoring.Ingestion

open Lib

/-! ## Messages and the history of a session -/

/-- A message for the handlers, with what their collaborators answer. -/
inductive Message
  | chunk (station? : Option String) (payload : ChunkPayload)
  | complete (today : String) (save : SaveOutcome) (metadata : Json)

/-- The session after the message. -/
def step (h : VideoHandler) (s : IngestionSession) : Message → IngestionSession
  | .chunk station? payload => (VideoHandler.handleChunk station? payload s).1
  | .complete today save metadata => (h.handleComplete today save metadata s).1

/-- A chunk with its body. -/
abbrev Chunk := VideoChunkMeta × List UInt8

/-- The chunk of the video that the message carries. -/
def Message.chunkOf (videoId : String) : Message → List Chunk
  | .chunk _ (.chunk chunkMeta body) =>
    if chunkMeta.videoId = videoId then [(chunkMeta, body)] else []
  | _ => []

/-- The chunks that were accepted for each video since its buffer was
opened. -/
def note (h : VideoHandler) (s : IngestionSession) (msg : Message)
    (upload : String → List Chunk) (videoId : String) : List Chunk :=
  match (step h s msg).videoBuffers.find? videoId with
  | none => []
  | some _ => upload videoId ++ msg.chunkOf videoId

/-- A session with its uploads after the messages. -/
def session (h : VideoHandler) (msgs : List Message) :
    IngestionSession × (String → List Chunk) :=
  run (withHistory (step h) (note h)) ({}, fun _ => []) msgs

/-! ## The buffer of an upload -/

/-- The buffer that the chunks make. -/
def bufferOf (stationId : String) (first : Chunk) (chunks : List Chunk) :
    VideoBuffer :=
  chunks.foldl (fun buf c => buf.add c.1.chunkSeq c.2)
    (.ofMeta first.1 stationId)

/-- The buffer of an upload, none if it has no chunk. -/
def Holds (buf? : Option VideoBuffer) (chunks : List Chunk) : Prop :=
  match chunks with
  | [] => buf? = none
  | first :: rest => ∃ stationId, buf? = some (bufferOf stationId first (first :: rest))

theorem bufferOf_concat (stationId : String) (first c : Chunk)
    (chunks : List Chunk) :
    bufferOf stationId first (chunks ++ [c]) =
      (bufferOf stationId first chunks).add c.1.chunkSeq c.2 := by
  rw [bufferOf, List.foldl_append]
  rfl

@[simp] theorem totalChunks_bufferOf (stationId : String) (first : Chunk)
    (chunks : List Chunk) :
    (bufferOf stationId first chunks).totalChunks = first.1.totalChunks := by
  induction chunks using List.reverseRecOn with
  | nil => rfl
  | append_singleton chunks c ih =>
    rw [bufferOf_concat]
    exact ih

/-- `VIDEO_COMPLETE` changes no buffer, it only removes one. -/
theorem find?_complete (h : VideoHandler) (today : String) (save : SaveOutcome)
    (metadata : Json) (s : IngestionSession) (v : String) :
    (h.handleComplete today save metadata s).1.videoBuffers.find? v = none ∨
      (h.handleComplete today save metadata s).1.videoBuffers.find? v =
        s.videoBuffers.find? v := by
  have hpop : ∀ id, (s.pop id).videoBuffers.find? v = none ∨
      (s.pop id).videoBuffers.find? v = s.videoBuffers.find? v := by
    intro id
    have hfind : (s.pop id).videoBuffers.find? v = _ :=
      s.videoBuffers.find?_deleteWhere_key id v
    rw [hfind]
    split
    · exact Or.inl rfl
    · exact Or.inr rfl
  have hvideo : ∀ id, (h.completeVideo today save id s).1.videoBuffers.find? v =
        none ∨ (h.completeVideo today save id s).1.videoBuffers.find? v =
          s.videoBuffers.find? v := by
    intro id
    unfold VideoHandler.completeVideo
    split
    · exact Or.inr rfl
    · next buf _ =>
      split
      · cases save with
        | saved => exact hpop buf.videoId
        | fileFailed exc => exact hpop buf.videoId
        | insertFailed exc => exact hpop buf.videoId
      · exact Or.inr rfl
  unfold VideoHandler.handleComplete
  split
  · split
    · next id _ =>
      split
      · exact Or.inr rfl
      · exact hvideo id
    · exact Or.inr rfl
    · exact Or.inr rfl
    · split <;> exact Or.inr rfl
  · exact Or.inr rfl

/-- A chunk goes to the buffer of its video, which is opened for it if the
station is known. -/
theorem find?_chunk (station? : Option String) (chunkMeta : VideoChunkMeta)
    (body : List UInt8) (s : IngestionSession) (v : String) :
    (VideoHandler.handleChunk station? (.chunk chunkMeta body)
        s).1.videoBuffers.find? v =
      if v = chunkMeta.videoId then
        ((s.videoBuffers.find? v).or (station?.map (.ofMeta chunkMeta))).map
          fun buf => buf.add chunkMeta.chunkSeq body
      else s.videoBuffers.find? v := by
  unfold VideoHandler.handleChunk
  dsimp only
  cases hfind : s.videoBuffers.find? chunkMeta.videoId with
  | some buf =>
    have hid := (Table.find?_eq_some_iff.mp hfind).2
    show (s.videoBuffers.upsert _).find? v = _
    rw [Table.find?_upsert]
    show (if v = buf.videoId then _ else _) = _
    rw [hid]
    split
    · next hv =>
      rw [hv, hfind]
      rfl
    · rfl
  | none =>
    cases station? with
    | none =>
      show s.videoBuffers.find? v = _
      by_cases hv : v = chunkMeta.videoId
      · rw [if_pos hv, hv, hfind]
        rfl
      · exact (if_neg hv).symm
    | some stationId =>
      show (s.videoBuffers.upsert _).find? v = _
      rw [Table.find?_upsert]
      show (if v = chunkMeta.videoId then _ else _) = _
      split
      · next hv =>
        rw [hv, hfind]
        rfl
      · rfl

/-- One message keeps the buffer of a video what its chunks make. -/
theorem holds_step (h : VideoHandler) (s : IngestionSession) (msg : Message)
    (upload : String → List Chunk)
    (hs : ∀ v, Holds (s.videoBuffers.find? v) (upload v)) (v : String) :
    Holds ((step h s msg).videoBuffers.find? v) (note h s msg upload v) := by
  have hkept : (step h s msg).videoBuffers.find? v = s.videoBuffers.find? v →
      msg.chunkOf v = [] → Holds ((step h s msg).videoBuffers.find? v)
        (note h s msg upload v) := by
    intro hsame hnone
    unfold note
    rw [hsame, hnone, List.append_nil]
    have hv := hs v
    cases hfind : s.videoBuffers.find? v with
    | none => rfl
    | some buf =>
      rw [hfind] at hv
      exact hv
  cases msg with
  | complete today save metadata =>
    rcases find?_complete h today save metadata s v with hnone | hsame
    · unfold note
      show Holds ((h.handleComplete today save metadata s).1.videoBuffers.find? v)
        (match (h.handleComplete today save metadata s).1.videoBuffers.find? v with
          | none => _
          | some _ => _)
      rw [hnone]
      rfl
    · exact hkept hsame rfl
  | chunk station? payload =>
    cases payload with
    | malformed exc => exact hkept rfl rfl
    | chunk chunkMeta body =>
      have hfind := find?_chunk station? chunkMeta body s v
      by_cases hv : v = chunkMeta.videoId
      · rw [if_pos hv] at hfind
        have hchunk : Message.chunkOf v (.chunk station? (.chunk chunkMeta body)) =
            [(chunkMeta, body)] := if_pos hv.symm
        have hold := hs v
        unfold note
        rw [hchunk]
        show Holds ((VideoHandler.handleChunk station? (.chunk chunkMeta body)
            s).1.videoBuffers.find? v)
          (match (VideoHandler.handleChunk station? (.chunk chunkMeta body)
              s).1.videoBuffers.find? v with
            | none => _
            | some _ => _)
        rw [hfind]
        cases hup : upload v with
        | nil =>
          rw [hup] at hold
          rw [show s.videoBuffers.find? v = none from hold]
          cases station? with
          | none => rfl
          | some stationId => exact ⟨stationId, rfl⟩
        | cons first rest =>
          rw [hup] at hold
          obtain ⟨stationId, hbuf⟩ := hold
          rw [hbuf]
          refine ⟨stationId, congrArg some ?_⟩
          exact (bufferOf_concat stationId first (chunkMeta, body)
            (first :: rest)).symm
      · rw [if_neg hv] at hfind
        exact hkept hfind (if_neg fun heq => hv heq.symm)

/-- After any messages every buffer is what the chunks of its upload make. -/
theorem holds_session (h : VideoHandler) (msgs : List Message) (v : String) :
    Holds ((session h msgs).1.videoBuffers.find? v) ((session h msgs).2 v) := by
  have hstep : ∀ (p : IngestionSession × (String → List Chunk)) msg,
      (∀ v, Holds (p.1.videoBuffers.find? v) (p.2 v)) →
      ∀ v, Holds ((withHistory (step h) (note h) p msg).1.videoBuffers.find? v)
        ((withHistory (step h) (note h) p msg).2 v) :=
    fun p msg hp => holds_step h p.1 msg p.2 hp
  have hinit : ∀ v, Holds (({} : IngestionSession).videoBuffers.find? v) [] :=
    fun _ => rfl
  have hrun := run_invariant hstep (s := ({}, fun _ => [])) hinit msgs
  exact hrun v

/-! ## The chunks of a buffer -/

/-- The sequence numbers that were received. -/
def seqs (chunks : List Chunk) : List Int := chunks.map fun c => c.1.chunkSeq

/-- The body that was last received under the number. -/
def latest (chunks : List Chunk) (seq : Int) : Option (List UInt8) :=
  (chunks.reverse.find? fun c => decide (c.1.chunkSeq = seq)).map Prod.snd

theorem latest_concat (chunks : List Chunk) (c : Chunk) (seq : Int) :
    latest (chunks ++ [c]) seq =
      if c.1.chunkSeq = seq then some c.2 else latest chunks seq := by
  unfold latest
  rw [List.reverse_append, List.reverse_singleton, List.singleton_append,
    List.find?_cons]
  by_cases h : c.1.chunkSeq = seq
  · simp [h]
  · simp [h]

section Buffer

variable {stationId : String} {first : Chunk} {chunks : List Chunk}

/-- The buffer keeps the last body of every number. -/
theorem mem_chunks_bufferOf {p : Int × List UInt8} :
    p ∈ (bufferOf stationId first chunks).chunks.rows ↔
      latest chunks p.1 = some p.2 := by
  induction chunks using List.reverseRecOn with
  | nil => simp [bufferOf, VideoBuffer.ofMeta, latest]
  | append_singleton chunks c ih =>
    obtain ⟨seq, body⟩ := p
    rw [bufferOf_concat, latest_concat]
    show _ ∈ (Table.upsert _ _).rows ↔ _
    rw [Table.mem_upsert, ih]
    by_cases h : c.1.chunkSeq = seq
    · simp [h, eq_comm]
    · have hne : ¬ seq = c.1.chunkSeq := fun heq => h heq.symm
      simp [h, hne]

theorem latest_isSome {seq : Int} :
    (latest chunks seq).isSome ↔ seq ∈ seqs chunks := by
  simp [latest, seqs]

theorem mem_keys_bufferOf {seq : Int} :
    seq ∈ (bufferOf stationId first chunks).chunks.rows.map Prod.fst ↔
      seq ∈ seqs chunks := by
  rw [List.mem_map, ← latest_isSome, Option.isSome_iff_exists]
  constructor
  · intro h
    obtain ⟨p, hp, rfl⟩ := h
    exact ⟨p.2, mem_chunks_bufferOf.mp hp⟩
  · intro h
    obtain ⟨body, hbody⟩ := h
    exact ⟨(seq, body), mem_chunks_bufferOf.mpr hbody, rfl⟩

theorem perm_keys_bufferOf :
    ((bufferOf stationId first chunks).chunks.rows.map Prod.fst).Perm
      (seqs chunks).dedup := by
  rw [List.perm_ext_iff_of_nodup (Table.nodup _) (List.nodup_dedup _)]
  intro seq
  rw [mem_keys_bufferOf, List.mem_dedup]

/-- `received_count` is the number of different sequence numbers. -/
theorem receivedCount_bufferOf :
    (bufferOf stationId first chunks).receivedCount =
      (seqs chunks).dedup.length := by
  rw [← perm_keys_bufferOf.length_eq, List.length_map]
  rfl

end Buffer

/-! ## Complete uploads -/

/-- There is a chunk for every number below `n`. -/
def AllReceived (chunks : List Chunk) (n : Int) : Prop :=
  ∀ i : Nat, (i : Int) < n → (i : Int) ∈ seqs chunks

/-- The bodies of the numbers below `n` in their order. -/
def fileOf (chunks : List Chunk) (n : Int) : List UInt8 :=
  (List.range n.toNat).flatMap fun i : Nat => (latest chunks i).getD []

/-- If as many numbers were received as were announced, none of them is out
of range. -/
def InRange (chunks : List Chunk) (n : Int) : Prop :=
  ((seqs chunks).dedup.length : Int) = n → ∀ seq ∈ seqs chunks, 0 ≤ seq ∧ seq < n

/-- The numbers below `n`. -/
def announced (n : Int) : List Int := (List.range n.toNat).map fun i : Nat => (i : Int)

theorem mem_announced {n seq : Int} :
    seq ∈ announced n ↔ 0 ≤ seq ∧ seq < n := by
  unfold announced
  rw [List.mem_map]
  constructor
  · intro h
    obtain ⟨i, hi, rfl⟩ := h
    have hlt := List.mem_range.mp hi
    omega
  · intro h
    exact ⟨seq.toNat, List.mem_range.mpr (by omega), by omega⟩

theorem nodup_announced (n : Int) : (announced n).Nodup :=
  List.nodup_range.map Nat.cast_injective

theorem length_announced (n : Int) : (announced n).length = n.toNat := by
  simp [announced]

/-- Numbers that fill the range leave no place for another. -/
theorem inRange_of_allReceived {chunks : List Chunk} {n : Int}
    (h : AllReceived chunks n) : InRange chunks n := by
  intro hlen seq hseq
  by_contra hout
  have hnodup : (seq :: announced n).Nodup := by
    refine List.nodup_cons.mpr ⟨?_, nodup_announced n⟩
    exact fun hmem => hout (mem_announced.mp hmem)
  have hsub : seq :: announced n ⊆ (seqs chunks).dedup := by
    refine List.cons_subset.mpr ⟨List.mem_dedup.mpr hseq, ?_⟩
    intro k hk
    obtain ⟨hpos, hlt⟩ := mem_announced.mp hk
    have hk' := h k.toNat (by omega)
    rw [Int.toNat_of_nonneg hpos] at hk'
    exact List.mem_dedup.mpr hk'
  have hcount := (hnodup.subperm hsub).length_le
  rw [List.length_cons, length_announced] at hcount
  omega

section Complete

variable {stationId : String} {first : Chunk} {chunks : List Chunk} {n : Int}
  (hlen : ((seqs chunks).dedup.length : Int) = n)
  (hrange : ∀ seq ∈ seqs chunks, 0 ≤ seq ∧ seq < n)

include hlen hrange

/-- `n` numbers in the range of `n` are all of them. -/
theorem perm_announced : (seqs chunks).dedup.Perm (announced n) := by
  have hsub : (seqs chunks).dedup ⊆ announced n :=
    fun seq hseq => mem_announced.mpr (hrange seq (List.mem_dedup.mp hseq))
  apply ((List.nodup_dedup _).subperm hsub).perm_of_length_le
  rw [length_announced]
  omega

theorem allReceived_of_inRange : AllReceived chunks n := by
  intro i hi
  have hmem := (perm_announced hlen hrange).mem_iff.mpr
    (mem_announced.mpr ⟨by omega, hi⟩)
  exact List.mem_dedup.mp hmem

/-- The numbers in ascending order are `0`, `1`, and so on. -/
theorem assemble_bufferOf :
    (bufferOf stationId first chunks).assemble = fileOf chunks n := by
  let rows := orderBy Prod.fst (bufferOf stationId first chunks).chunks.rows
  have hrows : ∀ p ∈ rows, p.2 = (latest chunks p.1).getD [] := by
    intro p hp
    rw [mem_chunks_bufferOf.mp (mem_orderBy.mp hp)]
    rfl
  have hperm : (rows.map Prod.fst).Perm (announced n) :=
    ((perm_orderBy Prod.fst _).map Prod.fst).trans
      (perm_keys_bufferOf.trans (perm_announced hlen hrange))
  have hkeys : rows.map Prod.fst = announced n := by
    have hsorted : (rows.map Prod.fst).Pairwise (fun a b => a ≤ b) :=
      List.pairwise_map.mpr (pairwise_orderBy Prod.fst _)
    have hannounced : (announced n).Pairwise (fun a b => a ≤ b) := by
      refine List.pairwise_map.mpr (List.pairwise_lt_range.imp ?_)
      intro a b hab
      omega
    rw [eq_orderBy_of_perm hperm hsorted,
      ← eq_orderBy_of_perm (List.Perm.refl _) hannounced]
  calc rows.flatMap Prod.snd
      = rows.flatMap fun p => (latest chunks p.1).getD [] :=
        List.flatMap_congr hrows
    _ = (rows.map Prod.fst).flatMap fun seq => (latest chunks seq).getD [] := by
        rw [List.flatMap_map]
    _ = fileOf chunks n := by
        rw [hkeys, announced, List.flatMap_map]
        rfl

end Complete

/-! ## `VIDEO_COMPLETE` -/

/-- `VIDEO_COMPLETE` of the video is acknowledged only if its upload holds
all `n` announced chunks, and then the file and the row of the video are
stored; if a chunk is missing the answer is an error and nothing is
stored. -/
def CompleteSound (h : VideoHandler) (s : IngestionSession) (videoId : String)
    (chunks : List Chunk) (n : Int) : Prop :=
  ∀ (today : String) (save : SaveOutcome) (fields : List (String × Json)),
    Json.get fields "video_id" = .str videoId →
    let out := h.handleComplete today save (.obj fields) s
    let reply := out.2.1
    let effects := out.2.2
    (reply = .ack → AllReceived chunks n ∧
        effects.file?.map Prod.snd = some (fileOf chunks n) ∧
        effects.row?.map VideoRow.videoId = some videoId) ∧
      (¬ AllReceived chunks n → (∃ reason, reply = .error reason) ∧
        effects.file? = none ∧ effects.row? = none)

section Sound

variable {h : VideoHandler} {s : IngestionSession} {videoId stationId : String}
  {first : Chunk} {rest : List Chunk}

theorem handleComplete_eq {today : String} {save : SaveOutcome}
    {fields : List (String × Json)}
    (hfields : Json.get fields "video_id" = .str videoId) :
    h.handleComplete today save (.obj fields) s =
      if videoId = "" then (s, .error "Missing video_id in VIDEO_COMPLETE", {})
      else h.completeVideo today save videoId s := by
  unfold VideoHandler.handleComplete
  dsimp only
  rw [hfields]

variable (hbuf : s.videoBuffers.find? videoId =
  some (bufferOf stationId first (first :: rest)))

include hbuf

/-- An upload that is complete by its count is saved, another is not. -/
theorem completeVideo_eq (today : String) (save : SaveOutcome) :
    ((((seqs (first :: rest)).dedup.length : Int) = first.1.totalChunks →
      h.completeVideo today save videoId s =
        h.saveVideo today save (bufferOf stationId first (first :: rest)) s)) ∧
    (((seqs (first :: rest)).dedup.length : Int) ≠ first.1.totalChunks →
      ∃ reason log, h.completeVideo today save videoId s =
        (s, .error reason, { log? := log })) := by
  have hcomplete : (bufferOf stationId first (first :: rest)).isComplete =
      decide (((seqs (first :: rest)).dedup.length : Int) =
        first.1.totalChunks) := by
    rw [VideoBuffer.isComplete, receivedCount_bufferOf, totalChunks_bufferOf]
  unfold VideoHandler.completeVideo
  rw [hbuf]
  dsimp only
  rw [hcomplete]
  constructor
  · intro heq
    rw [if_pos (decide_eq_true heq)]
  · intro hne
    rw [if_neg (by simpa using hne)]
    exact ⟨_, _, rfl⟩

theorem completeSound_of_inRange
    (hrange : InRange (first :: rest) first.1.totalChunks) :
    CompleteSound h s videoId (first :: rest) first.1.totalChunks := by
  intro today save fields hfields
  rw [handleComplete_eq hfields]
  by_cases hempty : videoId = ""
  · rw [if_pos hempty]
    exact ⟨fun hack => absurd hack (by simp), fun _ => ⟨⟨_, rfl⟩, rfl, rfl⟩⟩
  · rw [if_neg hempty]
    obtain ⟨hsave, hreject⟩ := completeVideo_eq (h := h) hbuf today save
    by_cases hlen : ((seqs (first :: rest)).dedup.length : Int) =
        first.1.totalChunks
    · have hall := allReceived_of_inRange hlen (hrange hlen)
      rw [hsave hlen]
      refine ⟨fun hack => ⟨hall, ?_⟩, fun hmissing => absurd hall hmissing⟩
      have hid := (Table.find?_eq_some_iff.mp hbuf).2
      have hfile : (bufferOf stationId first (first :: rest)).assemble =
          fileOf (first :: rest) first.1.totalChunks :=
        assemble_bufferOf hlen (hrange hlen)
      cases save with
      | saved => exact ⟨congrArg some hfile, congrArg some hid⟩
      | fileFailed exc => exact absurd hack (by simp [VideoHandler.saveVideo])
      | insertFailed exc => exact absurd hack (by simp [VideoHandler.saveVideo])
    · obtain ⟨reason, log, heq⟩ := hreject hlen
      rw [heq]
      exact ⟨fun hack => absurd hack (by simp), fun _ => ⟨⟨_, rfl⟩, rfl, rfl⟩⟩

/-- A chunk out of range that makes up the number is acknowledged. -/
theorem inRange_of_completeSound (hne : videoId ≠ "")
    (hsound : CompleteSound h s videoId (first :: rest) first.1.totalChunks) :
    InRange (first :: rest) first.1.totalChunks := by
  intro hlen
  have hfields : Json.get [("video_id", .str videoId)] "video_id" =
      .str videoId := rfl
  have hout := hsound "" .saved _ hfields
  simp only [handleComplete_eq hfields, if_neg hne,
    (completeVideo_eq hbuf "" .saved).1 hlen] at hout
  exact inRange_of_allReceived (hout.1 rfl).1 hlen

end Sound

/-- After any messages, a `VIDEO_COMPLETE` of a video with an open upload is
answered as it should exactly when no chunk outside the announced range
makes up the number of chunks.  An empty id is never acknowledged. -/
theorem completeSound_iff (h : VideoHandler) (msgs : List Message)
    (videoId : String) (first : Chunk) (rest : List Chunk)
    (hup : (session h msgs).2 videoId = first :: rest) :
    CompleteSound h (session h msgs).1 videoId (first :: rest)
        first.1.totalChunks ↔
      videoId = "" ∨ InRange (first :: rest) first.1.totalChunks := by
  have hholds := holds_session h msgs videoId
  rw [hup] at hholds
  obtain ⟨stationId, hbuf⟩ := hholds
  constructor
  · intro hsound
    by_cases hempty : videoId = ""
    · exact Or.inl hempty
    · exact Or.inr (inRange_of_completeSound hbuf hempty hsound)
  · intro hcond
    rcases hcond with hempty | hrange
    · intro today save fields hfields
      rw [handleComplete_eq hfields, if_pos hempty]
      exact ⟨fun hack => absurd hack (by simp), fun _ => ⟨⟨_, rfl⟩, rfl, rfl⟩⟩
    · exact completeSound_of_inRange hbuf hrange

/-- A handler for the examples. -/
def plainHandler : VideoHandler := ⟨"/storage", fun _ => none, fun _ => ""⟩

/-- A chunk of the video `cam-1`, which was announced with two chunks. -/
def sampleChunk (seq : Int) (body : List UInt8) : Message :=
  .chunk (some "7c9e6679") (.chunk
    { videoId := "cam-1", chunkSeq := seq, totalChunks := 2, stationName := "ST-1" }
    body)

/-- Chunks out of order, one of them sent twice. -/
theorem completeSound_iff_resent :
    let msgs := [sampleChunk 1 [30], sampleChunk 0 [10], sampleChunk 1 [20]]
    CompleteSound plainHandler (session plainHandler msgs).1 "cam-1"
      ((session plainHandler msgs).2 "cam-1") 2 := by
  intro msgs
  exact (completeSound_iff plainHandler msgs "cam-1" _ _ rfl).mpr
    (Or.inr (by unfold InRange; decide))

/-- Chunk 1 was lost and chunk 2 does not belong to the video, but the count
is right: the gateway acknowledges, and stores the wrong file. -/
theorem not_completeSound_foreignChunk :
    let msgs := [sampleChunk 0 [10], sampleChunk 2 [30]]
    let s := (session plainHandler msgs).1
    let out := plainHandler.handleComplete "2026-01-01" .saved
      (.obj [("video_id", .str "cam-1")]) s
    out.2.1 = .ack ∧ out.2.2.file?.map Prod.snd = some [10, 30] ∧
      ¬ AllReceived ((session plainHandler msgs).2 "cam-1") 2 ∧
      ¬ CompleteSound plainHandler s "cam-1"
        ((session plainHandler msgs).2 "cam-1") 2 := by
  intro msgs s out
  have hack : out.2.1 = .ack := rfl
  have hmissing : ¬ AllReceived ((session plainHandler msgs).2 "cam-1") 2 := by
    intro hall
    exact absurd (hall 1 (by decide)) (by decide)
  refine ⟨hack, rfl, hmissing, ?_⟩
  intro hsound
  exact hmissing ((hsound "2026-01-01" .saved _ rfl).1 hack).1

end DustMonitoring.Ingestion
