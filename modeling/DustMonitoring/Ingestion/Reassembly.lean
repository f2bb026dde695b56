import DustMonitoring.Ingestion.Uploads

/-!
# Videos whose chunks come in any order

Senders split videos into chunks, and the chunks of several videos come
through one session in any order, some of them more than once.

* `reassembled_of_sent`: once every chunk of a video was sent since the last
  `VIDEO_COMPLETE` of the video, the next one writes the bodies of its chunks
  in their order and leaves the buffers of the other videos alone.
-/

namespace DustMonitoring.Ingestion

open Lib

/-! ## Who is addressed -/

/-- The message is a `VIDEO_COMPLETE` of the video. -/
def Message.Completes (videoId : String) : Message → Prop
  | .complete _ _ (.obj fields) => Json.get fields "video_id" = .str videoId
  | _ => False

/-- The message is the chunk of the video with the number, and its station is
registered and active. -/
def Message.Carries (videoId : String) (seq : Int) : Message → Prop
  | .chunk station? (.chunk chunkMeta _) =>
    station?.isSome = true ∧ chunkMeta.videoId = videoId ∧ chunkMeta.chunkSeq = seq
  | _ => False

section Others

variable {h : VideoHandler} {today : String} {save : SaveOutcome} {s : IngestionSession}
  {v w : String}

theorem find?_pop (s : IngestionSession) (v w : String) :
    (s.pop v).videoBuffers.find? w = if w = v then none else s.videoBuffers.find? w :=
  s.videoBuffers.find?_deleteWhere_key v w

theorem fst_saveVideo (buf : VideoBuffer) :
    (h.saveVideo today save buf s).1 = s.pop buf.videoId := by
  cases save <;> rfl

/-- The file is written even if the row is not. -/
theorem file?_saveVideo {buf : VideoBuffer} (hsave : ∀ exc, save ≠ .fileFailed exc) :
    (h.saveVideo today save buf s).2.2.file?.map Prod.snd = some buf.assemble := by
  cases save with
  | saved => rfl
  | fileFailed exc => exact absurd rfl (hsave exc)
  | insertFailed exc => rfl

theorem find?_completeVideo_of_ne (hne : w ≠ v) :
    (h.completeVideo today save v s).1.videoBuffers.find? w = s.videoBuffers.find? w := by
  unfold VideoHandler.completeVideo
  split
  · rfl
  · next buf hbuf =>
    have hid := (Table.find?_eq_some_iff.mp hbuf).2
    split
    · rw [fst_saveVideo, find?_pop, hid, if_neg hne]
    · rfl

/-- `VIDEO_COMPLETE` of one video leaves the buffers of the others. -/
theorem find?_handleComplete_of_not_completes {metadata : Json}
    (hw : ¬ (Message.complete today save metadata).Completes w) :
    (h.handleComplete today save metadata s).1.videoBuffers.find? w =
      s.videoBuffers.find? w := by
  unfold VideoHandler.handleComplete
  split
  · next fields =>
    split
    · next v hv =>
      split
      · rfl
      · refine find?_completeVideo_of_ne fun heq => hw ?_
        rw [heq]
        exact hv
    · rfl
    · rfl
    · split <;> rfl
  · rfl

end Others

/-! ## The videos -/

/-- What the senders send: for each id the bodies of its chunks, in their
order. -/
abbrev Videos := String → List (List UInt8)

/-- A chunk of one of the videos. -/
def Videos.Has (videos : Videos) (c : Chunk) : Prop :=
  ∃ i : Nat, c.1.chunkSeq = i ∧ (videos c.1.videoId)[i]? = some c.2 ∧
    c.1.totalChunks = (videos c.1.videoId).length

/-- A message of these senders. -/
def Videos.Sends (videos : Videos) : Message → Prop
  | .chunk _ (.chunk chunkMeta body) => videos.Has (chunkMeta, body)
  | .chunk _ (.malformed _) => True
  | .complete _ _ _ => True

/-- `VIDEO_COMPLETE` of the video is acknowledged and writes the body unless
the file or the row fails, and it leaves the other buffers. -/
structure Reassembled (h : VideoHandler) (s : IngestionSession) (v : String)
    (body : List UInt8) : Prop where
  completes : ∀ today save fields, Json.get fields "video_id" = .str v →
    ((∀ exc, save ≠ .fileFailed exc) →
      (h.handleComplete today save (.obj fields) s).2.2.file?.map Prod.snd = some body) ∧
    (save = .saved → (h.handleComplete today save (.obj fields) s).2.1 = .ack) ∧
    (h.handleComplete today save (.obj fields) s).1.videoBuffers.find? v = none
  others : ∀ today save fields, Json.get fields "video_id" = .str v → ∀ w, w ≠ v →
    (h.handleComplete today save (.obj fields) s).1.videoBuffers.find? w =
      s.videoBuffers.find? w

/-! ## What a session has of them -/

variable {h : VideoHandler} {videos : Videos} {v : String}

/-- Every chunk of an upload is one of its video. -/
theorem has_of_mem_session {msgs : List Message} (hsends : ∀ msg ∈ msgs, videos.Sends msg) :
    ∀ v, ∀ c ∈ (session h msgs).2 v, c.1.videoId = v ∧ videos.Has c := by
  let Inv := fun p : IngestionSession × (String → List Chunk) =>
    ∀ v, ∀ c ∈ p.2 v, c.1.videoId = v ∧ videos.Has c
  apply @run_invariant_of_mem _ _ _ Inv
  · intro p msg hmsg hp v c hc
    have hsend := hsends msg hmsg
    dsimp only [withHistory, note] at hc
    split at hc
    · contradiction
    · rcases List.mem_append.mp hc with hc | hc
      · exact hp v c hc
      · unfold Message.chunkOf at hc
        split at hc
        · split at hc
          · next hv =>
            rw [List.mem_singleton.mp hc]
            exact ⟨hv, hsend⟩
          · contradiction
        · contradiction
  · exact fun v c hc => absurd hc List.not_mem_nil

/-- The upload has the chunk with the number. -/
def Received (v : String) (seq : Int) (p : IngestionSession × (String → List Chunk)) : Prop :=
  (p.1.videoBuffers.find? v).isSome = true ∧ seq ∈ seqs (p.2 v)

theorem received_of_carries {msg : Message} {seq : Int}
    (hmsg : msg.Carries v seq) (p : IngestionSession × (String → List Chunk)) :
    Received v seq (withHistory (step h) (note h) p msg) := by
  unfold Message.Carries at hmsg
  split at hmsg
  · next station? chunkMeta body =>
    obtain ⟨hstation, hv, hseq⟩ := hmsg
    obtain ⟨stationId, rfl⟩ := Option.isSome_iff_exists.mp hstation
    have hfind := find?_chunk (some stationId) chunkMeta body p.1 v
    rw [if_pos hv.symm] at hfind
    have hsome : ((step h p.1 (.chunk (some stationId) (.chunk chunkMeta body))).videoBuffers.find?
        v).isSome = true := by
      show ((VideoHandler.handleChunk _ _ _).1.videoBuffers.find? v).isSome = true
      rw [hfind]
      cases p.1.videoBuffers.find? v <;> rfl
    refine ⟨hsome, ?_⟩
    obtain ⟨buf, hbuf⟩ := Option.isSome_iff_exists.mp hsome
    dsimp only [withHistory, note]
    rw [hbuf]
    simp [seqs, Message.chunkOf, hv, hseq]
  · contradiction

theorem received_step {msg : Message} {seq : Int} (hmsg : ¬ msg.Completes v)
    {p : IngestionSession × (String → List Chunk)} (hp : Received v seq p) :
    Received v seq (withHistory (step h) (note h) p msg) := by
  have hsome : ((step h p.1 msg).videoBuffers.find? v).isSome = true := by
    cases msg with
    | complete today save metadata =>
      show ((h.handleComplete today save metadata p.1).1.videoBuffers.find? v).isSome = true
      rw [find?_handleComplete_of_not_completes hmsg]
      exact hp.1
    | chunk station? payload =>
      cases payload with
      | malformed exc => exact hp.1
      | chunk chunkMeta body =>
        show ((VideoHandler.handleChunk _ _ _).1.videoBuffers.find? v).isSome = true
        rw [find?_chunk]
        obtain ⟨buf, hbuf⟩ := Option.isSome_iff_exists.mp hp.1
        rw [hbuf]
        split <;> rfl
  refine ⟨hsome, ?_⟩
  obtain ⟨buf, hbuf⟩ := Option.isSome_iff_exists.mp hsome
  have hseq := hp.2
  dsimp only [withHistory, note]
  rw [hbuf]
  unfold seqs at hseq ⊢
  rw [List.map_append]
  exact List.mem_append_left _ hseq

/-! ## The whole video -/

section Upload

variable {chunks : List Chunk} (hhas : ∀ c ∈ chunks, c.1.videoId = v ∧ videos.Has c)

include hhas

theorem exists_of_mem_seqs {seq : Int} (hseq : seq ∈ seqs chunks) :
    ∃ i : Nat, seq = i ∧ i < (videos v).length := by
  obtain ⟨c, hc, rfl⟩ := List.mem_map.mp hseq
  obtain ⟨hv, i, hi, hbody, -⟩ := hhas c hc
  rw [hv] at hbody
  exact ⟨i, hi, (List.getElem?_eq_some_iff.mp hbody).1⟩

/-- A number has the same body whenever it is sent. -/
theorem latest_eq {i : Nat} (hi : (i : Int) ∈ seqs chunks) :
    latest chunks i = (videos v)[i]? := by
  obtain ⟨body, hbody⟩ := Option.isSome_iff_exists.mp (latest_isSome.mpr hi)
  rw [hbody]
  obtain ⟨c, hfind, rfl⟩ := Option.map_eq_some_iff.mp hbody
  have hc := List.mem_reverse.mp (List.mem_of_find?_eq_some hfind)
  have hfound := List.find?_some hfind
  have hseq : c.1.chunkSeq = i := of_decide_eq_true hfound
  obtain ⟨hv, j, hj, hbody, -⟩ := hhas c hc
  have hij : i = j := by omega
  rw [hij, ← hv, hbody]

variable (hall : AllReceived chunks (videos v).length)

include hall

theorem length_dedup_seqs : ((seqs chunks).dedup.length : Int) = (videos v).length := by
  have hperm : (seqs chunks).dedup.Perm (announced (videos v).length) := by
    rw [List.perm_ext_iff_of_nodup (List.nodup_dedup _) (nodup_announced _)]
    intro seq
    rw [List.mem_dedup, mem_announced]
    constructor
    · intro hseq
      obtain ⟨i, rfl, hi⟩ := exists_of_mem_seqs hhas hseq
      omega
    · intro hseq
      have hmem := hall seq.toNat (by omega)
      rwa [Int.toNat_of_nonneg hseq.1] at hmem
  rw [hperm.length_eq, length_announced]
  rfl

theorem fileOf_eq : fileOf chunks (videos v).length = (videos v).flatten := by
  have hbodies : ∀ i ∈ List.range (videos v).length,
      (latest chunks (i : Int)).getD [] = (videos v)[i]?.getD [] := by
    intro i hi
    rw [latest_eq hhas (hall i (by have hlt := List.mem_range.mp hi; omega))]
  have hmap : (List.range (videos v).length).map (fun i => (videos v)[i]?.getD []) =
      videos v := by
    refine List.ext_getElem (by simp) fun i hi hi' => ?_
    simp [List.getElem?_eq_getElem hi']
  rw [fileOf, Int.toNat_natCast, List.flatMap_congr hbodies, List.flatMap_def, hmap]

end Upload

/-- Once every chunk of a video was sent since its last `VIDEO_COMPLETE`, in
any order, between any other messages and any number of times, the next
`VIDEO_COMPLETE` writes the bodies of its chunks in their order. -/
theorem reassembled_of_sent (h : VideoHandler) (videos : Videos) (before since : List Message)
    (v : String) (hsends : ∀ msg ∈ before ++ since, videos.Sends msg)
    (hchunks : ∀ i : Nat, i < (videos v).length → ∃ msg ∈ since, msg.Carries v i)
    (hopen : ∀ msg ∈ since, ¬ msg.Completes v) (hv : v ≠ "") (hne : videos v ≠ []) :
    Reassembled h (session h (before ++ since)).1 v (videos v).flatten := by
  have hhas := has_of_mem_session (h := h) hsends v
  have hall : AllReceived ((session h (before ++ since)).2 v) (videos v).length := by
    intro i hi
    obtain ⟨msg, hmsg, hcarries⟩ := hchunks i (by omega)
    rw [session, run_append]
    exact (run_of_mem (D := Received v i) (received_of_carries hcarries)
      (fun _ x hx hp => received_step (hopen x hx) hp) hmsg _).2
  have hlen := length_dedup_seqs hhas hall
  have hfile := fileOf_eq hhas hall
  have hholds := holds_session h (before ++ since) v
  cases hup : (session h (before ++ since)).2 v with
  | nil =>
    rw [hup] at hlen
    have hzero : (videos v).length = 0 := by simpa [seqs] using hlen.symm
    exact absurd (List.length_eq_zero_iff.mp hzero) hne
  | cons first rest =>
    rw [hup] at hhas hall hlen hfile hholds
    obtain ⟨stationId, hbuf⟩ := hholds
    have htotal : first.1.totalChunks = (videos v).length := by
      obtain ⟨hfirst, i, -, -, htotal⟩ := hhas first List.mem_cons_self
      rw [htotal, hfirst]
    have hrange := inRange_of_allReceived hall hlen
    refine ⟨fun today save fields hfields => ?_, fun today save fields hfields w hw => ?_⟩
    · rw [handleComplete_eq hfields, if_neg hv,
        (completeVideo_eq hbuf today save).1 (hlen.trans htotal.symm)]
      refine ⟨fun hsave => ?_, fun hsave => ?_, ?_⟩
      · rw [file?_saveVideo hsave, assemble_bufferOf hlen hrange, hfile]
      · rw [hsave]
        rfl
      · rw [fst_saveVideo, find?_pop, if_pos (Table.find?_eq_some_iff.mp hbuf).2.symm]
    · refine find?_handleComplete_of_not_completes fun hcompletes => hw ?_
      have heq : Json.get fields "video_id" = .str w := hcompletes
      rw [hfields] at heq
      exact (Json.str.inj heq).symm

/-- Two videos, one of two chunks and one of a single chunk. -/
def twoVideos : Videos := fun v => if v = "a" then [[1], [2, 3]] else if v = "b" then [[4]] else []

/-- A chunk of one of the videos. -/
def sentChunk (videos : Videos) (v : String) (seq : Nat) (body : List UInt8) : Message :=
  .chunk (some "s1")
    (.chunk
      { videoId := v
        chunkSeq := seq
        totalChunks := (videos v).length
        stationName := "north" }
      body)

theorem sends_sentChunk {seq : Nat} {body : List UInt8} (hbody : (videos v)[seq]? = some body) :
    videos.Sends (sentChunk videos v seq body) :=
  ⟨seq, rfl, hbody, rfl⟩

/-- The second chunk first, a chunk of the other video between the chunks, and
a chunk sent again. -/
theorem reassembled_interleaved :
    Reassembled plainHandler
      (session plainHandler ([] ++
        [sentChunk twoVideos "a" 1 [2, 3], sentChunk twoVideos "b" 0 [4],
          sentChunk twoVideos "a" 0 [1], sentChunk twoVideos "a" 1 [2, 3]])).1 "a" [1, 2, 3] := by
  refine reassembled_of_sent plainHandler twoVideos [] _ "a" ?_ ?_ ?_ (by decide) (by decide)
  · intro msg hmsg
    simp only [List.nil_append, List.mem_cons, List.not_mem_nil, or_false] at hmsg
    rcases hmsg with rfl | rfl | rfl | rfl <;> exact sends_sentChunk rfl
  · intro i hi
    have hlt : i < 2 := hi
    obtain rfl | rfl : i = 0 ∨ i = 1 := by omega
    · exact ⟨sentChunk twoVideos "a" 0 [1], by simp, rfl, rfl, rfl⟩
    · exact ⟨sentChunk twoVideos "a" 1 [2, 3], by simp, rfl, rfl, rfl⟩
  · intro msg hmsg
    simp only [List.mem_cons, List.not_mem_nil, or_false] at hmsg
    rcases hmsg with rfl | rfl | rfl | rfl <;> exact id

end DustMonitoring.Ingestion
