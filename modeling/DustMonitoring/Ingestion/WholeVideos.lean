import DustMonitoring.Ingestion.Origins

/-!
# Whole videos

The file of a video has the bytes that its sender has split, whatever the order
in which the chunks come, however often they come, and whatever other connections
send, also under the same video id.  All that it takes is that the connection
itself splits the video the same way each time.

Main results:

* `videos_whole` -- the file of every row has the whole video.
-/

namespace DustMonitoring.Ingestion.Standard

open DustMonitoring.Lib DustMonitoring.GwProto

/-- Every chunk of the video on the connection is one of the parts, under its
place among them. -/
def Splits (g : Gateway) (events : List Event) (id : Nat) (key : Json.Key)
    (parts : List (List UInt8)) : Prop :=
  ∀ msg m body, Event.frame id msg.msgType msg.payload ∈ events → IsChunk g msg key m body →
    m.totalChunks.key? = some (.number parts.length) ∧
      ∃ i : Nat, m.chunkSeq.key? = some (.number i) ∧ parts[i]? = some body

/-- A buffer that has every part under its number. -/
theorem assembled_of_numbered {buf : Wire.Buffer} {parts : List (List UInt8)}
    (hlength : buf.chunks.rows.length = parts.length)
    (hchunks : ∀ chunk ∈ buf.chunks.rows,
      ∃ i : Nat, chunk.1 = .number i ∧ parts[i]? = some chunk.2) :
    assembled buf = some parts.flatten := by
  have hall : (buf.chunks.rows.all fun chunk => (number? chunk.1).isSome) = true := by
    rw [List.all_eq_true]
    intro chunk hchunk
    obtain ⟨i, hi, -⟩ := hchunks chunk hchunk
    rw [hi]
    rfl
  have hnodup : (buf.chunks.rows.map fun chunk => (number? chunk.1).getD 0).Nodup := by
    have hinj : ∀ k ∈ buf.chunks.rows.map Prod.fst, ∀ k' ∈ buf.chunks.rows.map Prod.fst,
        (number? k).getD 0 = (number? k').getD 0 → k = k' := by
      intro k hk k' hk'
      obtain ⟨chunk, hchunk, rfl⟩ := List.mem_map.mp hk
      obtain ⟨chunk', hchunk', rfl⟩ := List.mem_map.mp hk'
      obtain ⟨i, hi, -⟩ := hchunks chunk hchunk
      obtain ⟨i', hi', -⟩ := hchunks chunk' hchunk'
      rw [hi, hi']
      exact fun heq => congrArg Json.Key.number heq
    have hkeys := buf.chunks.nodup.map_on hinj
    rw [List.map_map] at hkeys
    exact hkeys
  have hparts : (orderBy (fun chunk => (number? chunk.1).getD 0) buf.chunks.rows).map Prod.snd =
      parts := by
    apply map_orderBy_numbered Nat.strictMono_cast hnodup hlength
    intro chunk hchunk
    obtain ⟨i, hi, hpart⟩ := hchunks chunk hchunk
    refine ⟨i, ?_, hpart⟩
    rw [hi]
    rfl
  rw [assembled, if_pos hall]
  dsimp only
  rw [List.flatMap_def, hparts]

/-- The arguments of the insert. -/
theorem videoOf_fields {g : Gateway} {buf : Wire.Buffer} {filePath : String}
    {capturedAt : Option Int} {row : VideoInsert}
    (h : g.videoOf buf filePath capturedAt = .ok row) :
    row.filePath = filePath ∧ ∃ text, g.str buf.videoId = .ok text ∧
      parseUuid text = some row.videoId := by
  obtain ⟨text, htext, h⟩ := bind_eq_ok.mp h
  cases huuid : parseUuid text with
  | none =>
    rw [huuid] at h
    contradiction
  | some videoId =>
    rw [huuid] at h
    obtain ⟨amrId, -, h⟩ := bind_eq_ok.mp h
    obtain ⟨sourceFormat, -, h⟩ := bind_eq_ok.mp h
    rw [← Except.ok.inj h]
    exact ⟨rfl, text, htext, huuid⟩

/-- The buffer of a video that is split has all of its parts. -/
theorem Arrival.Opened.assembled {g : Gateway} {a : Arrival} {key : Json.Key} {buf : Wire.Buffer}
    (h : a.Opened g key buf) (hcomplete : buf.isComplete = true) {parts : List (List UInt8)}
    (hsplits : Splits g a.events a.id key parts) : assembled buf = some parts.flatten := by
  have hsent : ∀ msg m body, Event.frame a.id msg.msgType msg.payload ∈ a.frame :: a.after →
      IsChunk g msg key m body → m.totalChunks.key? = some (.number parts.length) ∧
        ∃ i : Nat, m.chunkSeq.key? = some (.number i) ∧ parts[i]? = some body :=
    fun msg m body hmem hchunk =>
      hsplits msg m body (List.mem_append_right a.before hmem) hchunk
  apply assembled_of_numbered
  · obtain ⟨m, body, hchunk, hheader, -⟩ := h.header
    have htotal := (hsent a.msg m body List.mem_cons_self hchunk).1
    have hbuf : buf.totalChunks = m.totalChunks := congrArg Wire.Buffer.totalChunks hheader
    rw [Wire.Buffer.isComplete, decide_eq_true_eq, hbuf, htotal] at hcomplete
    have hnumber : (parts.length : Rat) = buf.receivedCount := by
      simpa using hcomplete
    exact (Nat.cast_injective hnumber).symm
  · intro chunk hchunk
    obtain ⟨msg, m, hmsg, hseq, hmem⟩ := h.chunks chunk hchunk
    obtain ⟨i, hi, hpart⟩ := (hsent msg m chunk.2 hmem hmsg).2
    rw [hseq] at hi
    exact ⟨i, Option.some.inj hi, hpart⟩

/-- Every row of a run has the file that was saved for its video, and if the
connection split this video into parts, they are in the file, each once and in
their order. -/
theorem videos_whole (g : Gateway) (events : List Event) :
    ∀ row ∈ (run (step g) {} events).db.video.rows,
      ∃ (a : Arrival) (key : Json.Key) (buf : Wire.Buffer) (text : String),
        a.events = events ∧ a.Exchanged g ⟨.assembleAndSave buf, .ok row.filePath⟩ ∧
        buf.videoId.key? = some key ∧ g.str buf.videoId = .ok text ∧
        parseUuid text = some row.videoId ∧
        ∀ parts, Splits g events a.id key parts → assembled buf = some parts.flatten := by
  intro row hrow
  obtain ⟨a, rfl, key, buf, path, capturedAt, hopened, hcomplete, hsaved, -, hvideo, -⟩ :=
    (known_run g events).accounted.videos row hrow
  obtain ⟨hpath, text, htext, huuid⟩ := videoOf_fields hvideo
  obtain ⟨m, body, hchunk, hheader, -⟩ := hopened.header
  have hvideoId : buf.videoId = m.videoId := congrArg Wire.Buffer.videoId hheader
  rw [← hpath] at hsaved
  refine ⟨a, key, buf, text, rfl, hsaved, ?_, htext, huuid,
    fun parts hsplits => hopened.assembled hcomplete hsplits⟩
  rw [hvideoId]
  exact hchunk.video

/-! ## A video of two parts -/

def partFields (seq : Nat) : List (String × Json) :=
  [("video_id", .str "00000000-0000-0000-0000-000000000001"), ("chunk_seq", .int seq),
    ("total_chunks", .int 2), ("station_name", .str "hall")]

def partText (seq : Nat) : List UInt8 :=
  encodeAscii ("\x7b\"video_id\": \"00000000-0000-0000-0000-000000000001\", \"chunk_seq\": " ++
    toString seq ++ ", \"total_chunks\": 2, \"station_name\": \"hall\"\x7d")

/-- The libraries on these messages. -/
def filmGateway : Gateway :=
  { visitGateway with
    json :=
      { visitGateway.json with
        loads := fun raw =>
          if raw = partText 0 then .ok (.obj (partFields 0))
          else if raw = partText 1 then .ok (.obj (partFields 1))
          else visitGateway.json.loads raw } }

/-- The second part comes first, and once more behind the first one, which
another connection sends too. -/
def film : List Event :=
  [.write (.createStation ⟨"00000000-0000-0000-0000-00000000000a", "hall", "active"⟩),
    .connect 0, .connect 1, .frame 0 .videoChunk (partText 1 ++ newline :: [3]), .answer 0 {},
    .frame 1 .videoChunk (partText 0 ++ newline :: [1, 2]),
    .frame 0 .videoChunk (partText 0 ++ newline :: [1, 2]), .answer 1 {},
    .frame 0 .videoChunk (partText 1 ++ newline :: [3]), .frame 0 .videoComplete completeText,
    .answer 0 { filePath := "/storage/1.bin" }, .answer 0 {}]

/-- What a payload says of its part. -/
def partOf (payload : List UInt8) :
    Option (Option Json.Key × Option Json.Key × List UInt8) :=
  (parseVideoChunk filmGateway.json payload).toOption.map fun (m, body) =>
    (m.totalChunks.key?, m.chunkSeq.key?, body)

theorem splits_film (id : Nat) (key : Json.Key) :
    Splits filmGateway film id key [[1, 2], [3]] := by
  intro msg m body hmem hchunk
  have hfirst : partOf (partText 0 ++ newline :: [1, 2]) =
      some (some (.number 2), some (.number 0), [1, 2]) := by decide +kernel
  have hsecond : partOf (partText 1 ++ newline :: [3]) =
      some (some (.number 2), some (.number 1), [3]) := by decide +kernel
  have hpart : partOf msg.payload = some (m.totalChunks.key?, m.chunkSeq.key?, body) := by
    rw [partOf, hchunk.parsed]
    rfl
  have hpayload : msg.payload = partText 0 ++ newline :: [1, 2] ∨
      msg.payload = partText 1 ++ newline :: [3] := by
    simp only [film, List.mem_cons, List.not_mem_nil, hchunk.isType, Event.frame.injEq,
      reduceCtorEq, true_and, false_and, and_false, false_or, or_false] at hmem
    rcases hmem with ⟨-, h⟩ | ⟨-, h⟩ | ⟨-, h⟩ | ⟨-, h⟩
    · exact Or.inr h
    · exact Or.inl h
    · exact Or.inl h
    · exact Or.inr h
  rcases hpayload with heq | heq
  · rw [heq, hfirst] at hpart
    obtain ⟨htotal, hseq, hbody⟩ := by simpa using hpart
    exact ⟨htotal.symm, 0, hseq.symm, by rw [← hbody]; rfl⟩
  · rw [heq, hsecond] at hpart
    obtain ⟨htotal, hseq, hbody⟩ := by simpa using hpart
    exact ⟨htotal.symm, 1, hseq.symm, by rw [← hbody]; rfl⟩

theorem videos_whole_film : ∃ row ∈ (run (step filmGateway) {} film).db.video.rows,
    ∃ (a : Arrival) (buf : Wire.Buffer),
      a.events = film ∧ a.Exchanged filmGateway ⟨.assembleAndSave buf, .ok row.filePath⟩ ∧
      assembled buf = some [1, 2, 3] := by
  have hrows : 0 < (run (step filmGateway) {} film).db.video.rows.length := by decide +kernel
  obtain ⟨a, key, buf, _, hevents, hsaved, -, -, -, hwhole⟩ :=
    videos_whole filmGateway film _ (List.getElem_mem hrows)
  exact ⟨_, List.getElem_mem hrows, a, buf, hevents, hsaved,
    hwhole _ (splits_film a.id key)⟩

end DustMonitoring.Ingestion.Standard
