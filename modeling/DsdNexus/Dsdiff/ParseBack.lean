import DsdNexus.Dsdiff.Compression
import DsdNexus.Dsdiff.Parse

/-! # DSDIFF: parsing what is written

What a reader notes of a chunk that stands anywhere in a file, and from it what the loops of
the parser note of the chunks one after another.
-/

namespace DsdNexus.Dsdiff

open Program FileProgram Endian Loop

/-! ## Readers of the file -/

section Reads

theorem ioReadUint64Be_passes (data : Nat) :
    Reads ioReadUint64Be (toBe 8 data) (ofBe (toBe 8 data)) :=
  (ioReadBytes_reads_of (toBe_length 8 data)).map ofBe

theorem chunkReadFver_reads (version : UInt32) :
    Reads chunkReadFver (toBe 8 4 ++ toBe 4 version.toNat) version :=
  (ioReadUint64Be_reads (by decide)).bind (Reads.check rfl (ioReadUint32Be_reads version))

theorem chunkReadFs_reads (sampleRate : UInt32) :
    Reads chunkReadFs (toBe 8 4 ++ toBe 4 sampleRate.toNat) sampleRate :=
  (ioReadUint64Be_reads (by decide)).bind (Reads.check rfl (ioReadUint32Be_reads sampleRate))

theorem chunkReadCmpr_reads {nameLen : Nat} {type : AudioType} {name : Bytes}
    (hknown : type ≠ .unknown) (hlength : name.length ≤ 255) (hlimit : name.length ≤ nameLen) :
    Reads (chunkReadCmpr nameLen 256)
      (toBe 8 (4 + 1 + name.length + if name.length % 2 = 0 then 1 else 0) ++
        ((if type = .dst then ChunkType.dst.fourcc else ChunkType.dsd.fourcc) ++
          pstringBytes name)) type := by
  have hcode : compressionTypeOf (storedCode type) = type := by
    cases type with
    | dsd => rfl
    | dst => rfl
    | unknown => exact absurd rfl hknown
  suffices hread : Reads (chunkReadCmpr nameLen 256)
      (toBe 8 (4 + 1 + name.length + if name.length % 2 = 0 then 1 else 0) ++
        (storedCode type ++ pstringBytes name)) (compressionTypeOf (storedCode type)) by
    rwa [hcode] at hread
  refine (ioReadUint64Be_passes _).bind ((ioReadChunkId_reads (storedCode_length type)).bind ?_)
  refine Reads.check (hcode.trans_ne hknown) ?_
  exact (ioReadPstring_reads hlength hlimit (by omega)).map _

theorem chunkReadAbss_reads (timecode : Timecode) :
    Reads chunkReadAbss (toBe 8 8 ++ (toBe 2 timecode.hours.toNat ++
      (toBe 1 timecode.minutes.toNat ++ (toBe 1 timecode.seconds.toNat ++
        toBe 4 timecode.samples.toNat)))) timecode :=
  (ioReadUint64Be_reads (by decide)).bind <| Reads.check rfl <|
    (ioReadUint16Be_reads _).bind <| (ioReadUint8_reads _).bind <| (ioReadUint8_reads _).bind <|
      (ioReadUint32Be_reads _).map _

theorem chunkReadLsco_reads (config : UInt16) :
    Reads chunkReadLsco (toBe 8 2 ++ toBe 2 config.toNat) config :=
  (ioReadUint64Be_reads (by decide)).bind (Reads.check rfl (ioReadUint16Be_reads config))

/-- A text that a buffer of the library can hold with its terminator. -/
def Holdable (text : Bytes) : Prop := text.length + 1 ≤ maxAllocSize

theorem Holdable.lt {text : Bytes} (h : Holdable text) : text.length + 1 < 2 ^ 31 :=
  Nat.lt_of_le_of_lt h (by decide)

theorem toNat_length {text : Bytes} (h : Holdable text) :
    (UInt32.ofNat text.length).toNat = text.length := by
  have hlt := h.lt
  exact UInt32.toNat_ofNat_of_lt' (show text.length < 2 ^ 32 by omega)

theorem readText_reads {text : Bytes} (h : Holdable text) :
    Reads (readText (UInt32.ofNat text.length)) text text := by
  have hlength := toNat_length h
  have hlt := h.lt
  have hsucc : (UInt32.ofNat text.length + 1).toNat = text.length + 1 := by
    rw [UInt32.toNat_add, hlength, UInt32.toNat_one]
    omega
  have hne : UInt32.ofNat text.length + 1 ≠ 0 := by
    intro hzero
    rw [hzero] at hsucc
    exact absurd hsucc (Nat.succ_ne_zero _).symm
  exact Reads.check hne <| Reads.check (hsucc.trans_le h) <| ioReadBytes_reads_of hlength.symm

theorem readTextOf_reads {text : Bytes} (h : Holdable text) :
    Reads (readTextOf (UInt32.ofNat text.length)) text text := by
  unfold readTextOf
  by_cases hnone : text = []
  · rw [hnone, if_neg (by decide)]
    exact Reads.pure []
  · have hpos : 0 < UInt32.ofNat text.length := by
      rw [UInt32.lt_iff_toNat_lt, toNat_length h]
      exact List.length_pos_iff.2 hnone
    rw [if_pos hpos]
    exact readText_reads h

theorem readPad_reads {text : Bytes} (h : Holdable text) :
    Reads (readPadOf (UInt32.ofNat text.length).toNat) (padBytes text.length) () := by
  rw [toNat_length h]
  exact readPadOf_reads _

/-- A comment as it comes back. -/
def Comment.stored (comment : Comment) : Comment :=
  { comment with
    textLength := UInt32.ofNat (cstring comment.text).length, text := cstring comment.text }

theorem readComment_reads {comment : Comment} (h : Holdable (cstring comment.text)) :
    Reads readComment (commentBytes comment) comment.stored :=
  (ioReadUint16Be_reads _).bind <| (ioReadUint8_reads _).bind <| (ioReadUint8_reads _).bind <|
  (ioReadUint8_reads _).bind <| (ioReadUint8_reads _).bind <| (ioReadUint16Be_reads _).bind <|
  (ioReadUint16Be_reads _).bind <| (ioReadUint32Be_reads _).bind <|
  (readTextOf_reads h).bind <| (readPad_reads h).map _

theorem readComments_reads {comments : List Comment}
    (h : ∀ comment ∈ comments, Holdable (cstring comment.text)) :
    Reads (readComments comments.length) (comments.flatMap commentBytes)
      (comments.map Comment.stored) := by
  induction comments with
  | nil => exact Reads.pure []
  | cons comment comments ih =>
    have hrest := ih fun c hc => h c (List.mem_cons_of_mem comment hc)
    rw [List.length_cons, readComments, List.flatMap_cons, List.map_cons]
    exact (readComment_reads (h comment List.mem_cons_self)).bind (hrest.map _)

theorem chunkReadComt_reads {commentCount : UInt16} {comments : List Comment}
    (hcount : comments.length = commentCount.toNat)
    (h : ∀ comment ∈ comments, Holdable (cstring comment.text)) (size : Nat) :
    Reads chunkReadComt
      (toBe 8 size ++ (toBe 2 commentCount.toNat ++ comments.flatMap commentBytes))
      (comments.map Comment.stored) := by
  have hcomments := readComments_reads h
  rw [hcount] at hcomments
  exact (ioReadUint64Be_passes size).bind ((ioReadUint16Be_reads commentCount).bind hcomments)

theorem chunkReadEmid_reads {emid : Bytes} (h : Holdable emid) :
    Reads chunkReadEmid (toBe 8 emid.length ++ (emid ++ padBytes emid.length)) emid := by
  have hlt := h.lt
  exact (ioReadUint64Be_reads (by omega)).bind ((readText_reads h).bind ((readPad_reads h).map _))

theorem readCountedText_reads {text : Bytes} (h : Holdable text) (size : Nat) :
    Reads readCountedText (toBe 8 size ++ (toBe 4 (UInt32.ofNat text.length).toNat ++
      (text ++ padBytes text.length))) text :=
  (ioReadUint64Be_passes size).bind <| (ioReadUint32Be_reads _).bind <|
    (readText_reads h).bind <| (readPad_reads h).map _

/-- A marker as it comes back. -/
def Marker.stored (marker : Marker) : Marker :=
  { marker with
    textLength := UInt32.ofNat (cstring marker.markerText).length
    markerText := cstring marker.markerText }

theorem chunkReadMark_reads {marker : Marker} (h : Holdable (cstring marker.markerText)) :
    Reads chunkReadMark
      (toBe 8 ((cstring marker.markerText).length + 22 + (cstring marker.markerText).length % 2) ++
        (toBe 2 marker.time.hours.toNat ++ (toBe 1 marker.time.minutes.toNat ++
        (toBe 1 marker.time.seconds.toNat ++ (toBe 4 marker.time.samples.toNat ++
        (toBe 4 marker.offset.toNat ++ (toBe 2 marker.markType.toNat ++
        (toBe 2 marker.markChannel.toNat ++ (toBe 2 marker.trackFlags.toNat ++
        (toBe 4 (UInt32.ofNat (cstring marker.markerText).length).toNat ++
        (cstring marker.markerText ++ padBytes (cstring marker.markerText).length)))))))))))
      marker.stored := by
  have hlength := toNat_length h
  have hlt := h.lt
  have hsize : (UInt32.ofNat (cstring marker.markerText).length + 22).toNat =
      (cstring marker.markerText).length + 22 + (cstring marker.markerText).length % 2 ∨
      (UInt32.ofNat (cstring marker.markerText).length + 22 + 1).toNat =
      (cstring marker.markerText).length + 22 + (cstring marker.markerText).length % 2 := by
    have htwentytwo : (22 : UInt32).toNat = 22 := rfl
    rw [UInt32.toNat_add, UInt32.toNat_add, UInt32.toNat_add, hlength, htwentytwo,
      UInt32.toNat_one]
    omega
  refine (ioReadUint64Be_reads (by omega)).bind <| (ioReadUint16Be_reads _).bind <|
    (ioReadUint8_reads _).bind <| (ioReadUint8_reads _).bind <| (ioReadUint32Be_reads _).bind <|
    (ioReadUint32Be_reads _).bind <| (ioReadUint16Be_reads _).bind <|
    (ioReadUint16Be_reads _).bind <| (ioReadUint16Be_reads _).bind <|
    (ioReadUint32Be_reads _).bind <| Reads.check hsize <| (readTextOf_reads h).bind <|
    (readPad_reads h).map _

/-- A tag that is not empty and fits a buffer. -/
def Tag (tagData : Bytes) : Prop := tagData ≠ [] ∧ tagData.length ≤ maxAllocSize

theorem chunkReadId3_reads {tagData : Bytes} (h : Tag tagData) :
    Reads chunkReadId3 (toBe 8 tagData.length ++ (tagData ++ padBytes tagData.length))
      tagData := by
  have hmax : maxAllocSize = 2 ^ 31 - 1 := rfl
  have hle := h.2
  rw [hmax] at hle
  have hsome : ¬ tagData.length = 0 := fun hnone => h.1 (List.eq_nil_of_length_eq_zero hnone)
  refine (ioReadUint64Be_reads (by omega)).bind ?_
  rw [if_neg hsome]
  exact Reads.check h.2 ((ioReadBytes_reads tagData).bind ((readPadOf_reads _).map _))

end Reads

/-! ## What is noted of a chunk -/

/-- The file stands between the bytes. -/
def between (h : Handle) (pre post : Bytes) : OpenHandle := ⟨h, ⟨pre ++ post, pre.length⟩⟩

theorem between_behind (h : Handle) (pre xs post : Bytes) :
    (⟨h, ⟨pre ++ (xs ++ post), pre.length + xs.length⟩⟩ : OpenHandle) =
      between h (pre ++ xs) post := by
  rw [between, List.append_assoc, List.length_append]

/-- `m` reads the bytes, and changes the handle as `note` says for the place where they stand. -/
def Notes (m : Dsd Unit) (bytes : Bytes) (note : Nat → Handle → Handle) : Prop :=
  ∀ h pre post, pre.length + bytes.length ≤ ByteFile.offMax →
    m (between h pre (bytes ++ post)) =
      (.ok (), between (note pre.length h) (pre ++ bytes) post)

section Notes

variable {α : Type} {m : Io α} {k : α → Dsd Unit} {a : α} {xs ys : Bytes}

theorem notes_update (f : Handle → Handle) : Notes (update f) [] (fun _ => f) := by
  intro h pre post _
  rw [List.append_nil]
  rfl

theorem Notes.update {m : Dsd Unit} {g : Nat → Handle → Handle} (hm : Notes m ys g)
    (f : Handle → Handle) :
    Notes (Dsdiff.update f >>= fun _ => m) ys (fun pos h => g pos (f h)) :=
  fun h pre post hroom => hm (f h) pre post hroom

theorem Notes.tell {k : Nat → Dsd Unit} {g : Nat → Handle → Handle}
    (hk : ∀ pos, Notes (k pos) ys (fun _ => g pos)) :
    Notes (liftIo tell >>= k) ys g :=
  fun h pre post hroom => hk pre.length h pre post hroom

theorem Notes.read {g : Handle → Handle} (hm : Reads m xs a)
    (hk : Notes (k a) ys (fun _ => g)) :
    Notes (liftIo m >>= k) (xs ++ ys) (fun _ => g) := by
  intro h pre post hroom
  rw [List.length_append] at hroom
  have hlift : liftIo m (between h pre ((xs ++ ys) ++ post)) =
      (.ok a, between h (pre ++ xs) (ys ++ post)) := by
    rw [between, liftIo, zoom_apply, List.append_assoc, hm pre (ys ++ post),
      ← between_behind h pre xs]
  have hrest := hk h (pre ++ xs) post (by rw [List.length_append]; omega)
  rw [bind_of_ok hlift, hrest, List.append_assoc]

theorem Notes.check {p : Prop} [Decidable p] {e : Error} {k : Unit → Dsd Unit}
    {g : Nat → Handle → Handle} (h : p) (hk : Notes (k ()) ys g) :
    Notes (require p e >>= k) ys g := by
  rw [require_of h]
  exact hk

/-- The last read of a chunk, whose result is noted. -/
theorem notes_of_reads (hm : Reads m xs a) (f : α → Handle → Handle) :
    Notes (liftIo m >>= fun a => Dsdiff.update (f a)) xs (fun _ => f a) := by
  have h := Notes.read (k := fun a => Dsdiff.update (f a)) hm (notes_update (f a))
  rwa [List.append_nil] at h

end Notes

section Readers

theorem readFver_notes (version : UInt32) :
    Notes readFver (toBe 8 4 ++ toBe 4 version.toNat)
      (fun _ h => { h with formatVersion := version }) :=
  Notes.update (notes_of_reads (chunkReadFver_reads version) _) _

theorem readFs_notes (sampleRate : UInt32) :
    Notes readFs (toBe 8 4 ++ toBe 4 sampleRate.toNat)
      (fun _ h => { h with sampleRate := sampleRate }) :=
  Notes.update (notes_of_reads (chunkReadFs_reads sampleRate) _) _

theorem readChnl_notes {ids : List ChannelId} (hsome : 1 ≤ ids.length)
    (hfew : ids.length ≤ 1000) (hids : ∀ id ∈ ids, IsChannel id) :
    Notes readChnl (chnlBytes (ids.map storedCharacters)) (fun pos h => { h with
      channelChunkPos := pos - 4
      channelCount := UInt16.ofNat ids.length
      channelIds := some ids }) := by
  have hcodes : (ids.map storedCharacters).map channelOfCode = ids := by
    rw [List.map_map]
    exact (List.map_congr_left fun id hid => channelOfCode_stored (hids id hid)).trans
      (List.map_id ids)
  have hstored : ∀ code ∈ ids.map storedCharacters, code.length = 4 := by
    intro code hcode
    obtain ⟨id, hid, rfl⟩ := List.mem_map.1 hcode
    exact storedCharacters_length (hids id hid)
  have hread := chunkReadChnl_reads (by rwa [List.length_map]) (by rwa [List.length_map]) hstored
  rw [hcodes, List.length_map] at hread
  exact Notes.tell fun pos => Notes.update (notes_of_reads hread fun read h =>
    { h with channelCount := read.1, channelIds := some read.2 }) _

theorem readCmpr_notes {nameLen : Nat} {type : AudioType} {name : Bytes}
    (hknown : type ≠ .unknown) (hlength : name.length ≤ 255) (hlimit : name.length ≤ nameLen) :
    Notes (readCmpr nameLen)
      (toBe 8 (4 + 1 + name.length + if name.length % 2 = 0 then 1 else 0) ++
        ((if type = .dst then ChunkType.dst.fourcc else ChunkType.dsd.fourcc) ++
          pstringBytes name))
      (fun _ h => { h with isDstFormat := type = .dst }) := by
  have hdecodes : type = .dsd ∨ type = .dst := by
    cases type with
    | dsd => exact .inl rfl
    | dst => exact .inr rfl
    | unknown => exact absurd rfl hknown
  have hread := Notes.read (chunkReadCmpr_reads hknown hlength hlimit)
    (k := fun type => do
      require (type = .dsd ∨ type = .dst) .unsupportedCompression
      Dsdiff.update fun h => { h with isDstFormat := type = .dst })
    (Notes.check hdecodes (notes_update _))
  rwa [List.append_nil] at hread

theorem readAbss_notes (timecode : Timecode) :
    Notes readAbss (toBe 8 8 ++ (toBe 2 timecode.hours.toNat ++
        (toBe 1 timecode.minutes.toNat ++ (toBe 1 timecode.seconds.toNat ++
          toBe 4 timecode.samples.toNat))))
      (fun pos h => { h with
        timecodeChunkPos := pos - 4, startTimecode := timecode, hasTimecode := true }) :=
  Notes.tell fun _ => Notes.update (notes_of_reads (chunkReadAbss_reads timecode) _) _

theorem readLsco_notes (config : UInt16) :
    Notes readLsco (toBe 8 2 ++ toBe 2 config.toNat) (fun pos h => { h with
      loudspeakerChunkPos := pos - 4, loudspeakerConfig := config
      hasLoudspeakerConfig := true }) :=
  Notes.tell fun _ => Notes.update (notes_of_reads (chunkReadLsco_reads config) _) _

theorem readComt_notes {commentCount : UInt16} {comments : List Comment}
    (hcount : comments.length = commentCount.toNat)
    (hcomments : ∀ comment ∈ comments, Holdable (cstring comment.text)) (size : Nat) :
    Notes readComt (toBe 8 size ++ (toBe 2 commentCount.toNat ++ comments.flatMap commentBytes))
      (fun pos h => { h with
        commentChunkPos := pos - 4, commentCount := commentCount
        comments := comments.map Comment.stored }) := by
  have hread := notes_of_reads (chunkReadComt_reads hcount hcomments size)
    fun (comments : List Comment) h =>
      { h with commentCount := UInt16.ofNat comments.length, comments := comments }
  rw [List.length_map, hcount, UInt16.ofNat_toNat] at hread
  exact Notes.tell fun _ => Notes.update hread _

theorem readFileId3_notes {tag : Bytes} (h : Tag tag) :
    Notes readFileId3 (toBe 8 tag.length ++ (tag ++ padBytes tag.length))
      (fun pos h => { h with id3ChunkPos := pos - 4, id3Tag := tag }) :=
  Notes.tell fun _ => Notes.update (notes_of_reads (chunkReadId3_reads h) _) _

theorem readTrackId3_notes {tag : Bytes} (h : Tag tag) (index : Nat) :
    Notes (readTrackId3 index) (toBe 8 tag.length ++ (tag ++ padBytes tag.length))
      (fun _ h => { h with trackId3Tags := putTrackTag h.trackId3Tags index tag }) := by
  have hnote : Notes (if tag = [] then pure () else Dsdiff.update fun h =>
      { h with trackId3Tags := putTrackTag h.trackId3Tags index tag }) []
      (fun _ h => { h with trackId3Tags := putTrackTag h.trackId3Tags index tag }) := by
    rw [if_neg h.1]
    exact notes_update _
  have hread := Notes.read (chunkReadId3_reads h)
    (k := fun tag => if tag = [] then pure () else Dsdiff.update fun h =>
      { h with trackId3Tags := putTrackTag h.trackId3Tags index tag }) hnote
  rwa [List.append_nil] at hread

theorem readManf_notes {manId data : Bytes} {dataSize : UInt32} (hid : manId.length = 4)
    (hdata : data.length = dataSize.toNat) (hsize : data.length ≤ maxAllocSize) :
    Notes readManf
      (toBe 8 (4 + dataSize.toNat) ++ (manId ++ (data ++ padBytes dataSize.toNat)))
      (fun pos h => { h with
        manufacturerChunkPos := pos - 4, manufacturerId := manId, manufacturerData := data
        manufacturerDataSize := dataSize, hasManufacturer := true }) := by
  have hlt := dataSize.toNat_lt
  have hmanf : UInt32.ofNat (4 + dataSize.toNat - 4) = dataSize := by
    rw [Nat.add_sub_cancel_left, UInt32.ofNat_toNat]
  have hodd : readPadOf (4 + dataSize.toNat) = readPadOf dataSize.toNat := by
    unfold readPadOf
    have hsame : (4 + dataSize.toNat) % 2 = dataSize.toNat % 2 := by omega
    rw [hsame]
  have halloc : Reads (saMalloc dataSize.toNat) [] () := by
    rw [saMalloc, require_of (hdata ▸ hsize)]
    exact Reads.pure ()
  have hchunk : 4 + dataSize.toNat < 2 ^ 64 := by omega
  have hlast := notes_of_reads (readPadOf_reads dataSize.toNat) fun _ h =>
    { h with
      manufacturerData := data, manufacturerDataSize := dataSize, hasManufacturer := true }
  refine Notes.tell fun pos => Notes.update (g := fun _ h => { h with
    manufacturerId := manId, manufacturerData := data, manufacturerDataSize := dataSize
    hasManufacturer := true }) (Notes.read (ioReadUint64Be_reads hchunk) ?_) _
  refine Notes.check (Nat.le_add_right 4 _) (Notes.read (ioReadBytes_reads_of hid) ?_)
  refine Notes.update (g := fun _ h => { h with
    manufacturerData := data, manufacturerDataSize := dataSize, hasManufacturer := true }) ?_ _
  simp only [hmanf, hodd]
  show Notes _ ([] ++ (data ++ padBytes dataSize.toNat)) _
  exact Notes.read halloc (Notes.read (ioReadBytes_reads_of hdata) hlast)

theorem readEmid_notes {emid : Bytes} (h : Holdable emid) :
    Notes readEmid (toBe 8 emid.length ++ (emid ++ padBytes emid.length))
      (fun _ h => { h with emid := some emid, hasEmid := true }) :=
  Notes.update (notes_of_reads (chunkReadEmid_reads h) _) _

theorem readDiar_notes {text : Bytes} (h : Holdable text) (size : Nat) :
    Notes readDiar (toBe 8 size ++ (toBe 4 (UInt32.ofNat text.length).toNat ++
        (text ++ padBytes text.length)))
      (fun _ h => { h with discArtist := some text, hasDiscArtist := true }) :=
  Notes.update (notes_of_reads (readCountedText_reads h size) _) _

theorem readDiti_notes {text : Bytes} (h : Holdable text) (size : Nat) :
    Notes readDiti (toBe 8 size ++ (toBe 4 (UInt32.ofNat text.length).toNat ++
        (text ++ padBytes text.length)))
      (fun _ h => { h with discTitle := some text, hasDiscTitle := true }) :=
  Notes.update (notes_of_reads (readCountedText_reads h size) _) _

/-- The sound data are passed over. -/
theorem readDsd_notes (audio : Bytes) :
    Notes readDsd (toBe 8 audio.length ++ (audio ++ padBytes audio.length)) (fun pos h => { h with
      soundDataSize := audio.length
      soundDataStartPos := pos + 8
      soundDataEndPos := pos + 8 + audio.length
      sampleFrameCount := audio.length / h.channelCount.toNat }) := by
  intro h pre post hroom
  simp only [List.length_append, toBe_length] at hroom
  have hmax : ByteFile.offMax = 2 ^ 63 - 1 := rfl
  have hbytes : pre ++ ((toBe 8 audio.length ++ (audio ++ padBytes audio.length)) ++ post) =
      (pre ++ (toBe 8 audio.length ++ audio)) ++ (padBytes audio.length ++ post) := by
    simp only [List.append_assoc]
  have hsize : ioReadUint64Be
      ⟨pre ++ ((toBe 8 audio.length ++ (audio ++ padBytes audio.length)) ++ post), pre.length⟩ =
      (.ok audio.length,
        ⟨pre ++ ((toBe 8 audio.length ++ (audio ++ padBytes audio.length)) ++ post),
          pre.length + 8⟩) := by
    rw [List.append_assoc, ioReadUint64Be_reads (by omega) pre, toBe_length]
  have hseek : ∀ content : Bytes, ioSeekCur audio.length ⟨content, pre.length + 8⟩ =
      (.ok (), ⟨content, pre.length + 8 + audio.length⟩) := by
    intro content
    have hplace : pre.length + 8 + audio.length ≤ ByteFile.offMax := by omega
    rw [ioSeekCur, int64_of_lt (by omega)]
    exact seekBy_of_le _ (f := ⟨content, pre.length + 8⟩) hplace
  have hpad := readPadOf_reads audio.length (pre ++ (toBe 8 audio.length ++ audio)) post
  rw [← hbytes, List.length_append, List.length_append, toBe_length, ← Nat.add_assoc] at hpad
  simp only [readDsd, readSndHeader, between, bind_apply, update, modify_apply, liftIo, zoom_apply,
    tell_apply, hsize, hseek, hpad]
  simp only [List.append_assoc, List.length_append, toBe_length, Nat.add_assoc]

end Readers

/-! ## The turns over a chunk -/

/-- What a handle says of its file. -/
structure Contents where
  version : UInt32
  isDstFormat : Bool
  sampleRate : UInt32
  channelCount : UInt16
  channelIds : Option (List ChannelId)
  timecode : Option Timecode
  loudspeaker : Option UInt16
  soundDataSize : Nat
  soundDataStartPos : Nat
  soundDataEndPos : Nat
  sampleFrameCount : Nat
  commentCount : UInt16
  comments : List Comment
  id3Tag : Bytes
  trackId3Tags : List Bytes
  manufacturer : Option (Bytes × Bytes × UInt32)
  emid : Option Bytes
  discArtist : Option Bytes
  discTitle : Option Bytes
  markers : List MarkerEntry

/-- `some` of what is there. -/
def noted {α : Type} (has : Bool) (a : α) : Option α := if has then some a else none

def Handle.contents (h : Handle) : Contents where
  version := h.formatVersion
  isDstFormat := h.isDstFormat
  sampleRate := h.sampleRate
  channelCount := h.channelCount
  channelIds := h.channelIds
  timecode := noted h.hasTimecode h.startTimecode
  loudspeaker := noted h.hasLoudspeakerConfig h.loudspeakerConfig
  soundDataSize := h.soundDataSize
  soundDataStartPos := h.soundDataStartPos
  soundDataEndPos := h.soundDataEndPos
  sampleFrameCount := h.sampleFrameCount
  commentCount := h.commentCount
  comments := h.comments
  id3Tag := h.id3Tag
  trackId3Tags := h.trackId3Tags
  manufacturer := noted h.hasManufacturer
    (h.manufacturerId, h.manufacturerData, h.manufacturerDataSize)
  emid := if h.hasEmid then h.emid else none
  discArtist := if h.hasDiscArtist then h.discArtist else none
  discTitle := if h.hasDiscTitle then h.discTitle else none
  markers := h.markers

/-- Where a parser is: what it has noted, its counts, and the loop it is in. -/
structure Stage where
  contents : Contents
  frm8 : Frm8
  inner : Option Inner

/-- How far the chunks of the loop may go. The outer loop starts another chunk where twelve bytes
can be left. -/
def Stage.room (s : Stage) : Nat :=
  match s.inner with
  | none => s.frm8.chunkSize + 12
  | some (.prop l) => l.endPos
  | some (.diin endPos) => endPos

/-- Over the bytes, which stand at `pos`, the parser comes from one stage to another. -/
def Passes (nameLen : Nat → Nat) (pos : Nat) (bytes : Bytes) (s t : Stage) : Prop :=
  ∀ h pre post, h.contents = s.contents → pre.length = pos → pos + bytes.length ≤ s.room →
    pos + bytes.length ≤ ByteFile.offMax →
    ∃ h', h'.contents = t.contents ∧
      Reaches (parseTurn nameLen) ⟨between h pre (bytes ++ post), s.frm8, s.inner⟩
        ⟨between h' (pre ++ bytes) post, t.frm8, t.inner⟩

section Passes

variable {nameLen : Nat → Nat} {pos : Nat} {xs ys : Bytes} {s t u : Stage}

theorem Passes.refl (s : Stage) : Passes nameLen pos [] s s := by
  intro h pre post hcontents _ _ _
  rw [List.append_nil]
  exact ⟨h, hcontents, .refl⟩

theorem Passes.append (hs : Passes nameLen pos xs s t)
    (ht : Passes nameLen (pos + xs.length) ys t u)
    (hroom : pos + xs.length + ys.length ≤ s.room → pos + xs.length + ys.length ≤ t.room) :
    Passes nameLen pos (xs ++ ys) s u := by
  intro h pre post hcontents hpre hle hmax
  rw [List.length_append] at hle hmax
  obtain ⟨h₁, hcontents₁, hfirst⟩ := hs h pre (ys ++ post) hcontents hpre (by omega) (by omega)
  obtain ⟨h₂, hcontents₂, hrest⟩ := ht h₁ (pre ++ xs) post hcontents₁
    (by rw [List.length_append, hpre]) (hroom (by omega)) (by omega)
  rw [List.append_assoc] at hrest
  refine ⟨h₂, hcontents₂, ?_⟩
  rw [List.append_assoc]
  exact hfirst.trans hrest

theorem header_between {type : ChunkType} (hknown : type ≠ .unknown) (h : Handle)
    (pre post : Bytes) :
    chunkReadHeader (between h pre (type.fourcc ++ post)).io =
      (.ok type, (between h (pre ++ type.fourcc) post).io) := by
  rw [between, between, chunkReadHeader_reads hknown pre post, List.append_assoc,
    List.length_append]

/-- The turns that start at the id of a chunk: where the reader of the chunk succeeds, they go on
with what it has read. -/
structure Turning (nameLen : Nat → Nat) (pos : Nat) (type : ChunkType) (m : Dsd Unit)
    (s t : Stage) : Prop where
  known : type ≠ .unknown
  turn : ∀ h pre post env', pre.length = pos → pos + 12 ≤ s.room →
    m (between h (pre ++ type.fourcc) post) = (.ok (), env') →
      parseTurn nameLen ⟨between h pre (type.fourcc ++ post), s.frm8, s.inner⟩ =
        .inl ⟨env', t.frm8, t.inner⟩

variable {type : ChunkType} {m : Dsd Unit} {note : Nat → Handle → Handle} {size : Nat}
  {body : Bytes} {c c' : Contents} {l : Frm8}

theorem Turning.passes (hturn : Turning nameLen pos type m s t)
    (hm : Notes m (toBe 8 size ++ body) note)
    (hnote : ∀ h, h.contents = s.contents → (note (pos + 4) h).contents = t.contents) :
    Passes nameLen pos (chunkHead type size ++ body) s t := by
  intro h pre post hcontents hpre hle hmax
  have hcode := ChunkType.fourcc_length hturn.known
  simp only [chunkHead, List.length_append, toBe_length, hcode] at hle hmax
  have hread := hm h (pre ++ type.fourcc) post
    (by simp only [List.length_append, toBe_length, hcode]; omega)
  have hplace : (pre ++ type.fourcc).length = pos + 4 := by
    rw [List.length_append, hpre, hcode]
  rw [hplace] at hread
  have hnext := hturn.turn h pre ((toBe 8 size ++ body) ++ post) _ hpre (by omega) hread
  refine ⟨note (pos + 4) h, hnote h hcontents, ?_⟩
  have hbytes : chunkHead type size ++ body = type.fourcc ++ (toBe 8 size ++ body) := by
    rw [chunkHead, List.append_assoc]
  rw [hbytes, List.append_assoc, ← List.append_assoc pre]
  exact Reaches.head hnext .refl

theorem Parse.call_of_ok {s : Parse} {env : OpenHandle} (h : m s.env = (.ok (), env))
    (count : Frm8 → Frm8) : s.call m count = .inl { s with env := env, frm8 := count s.frm8 } := by
  rw [Parse.call, h]
  rfl

theorem Parse.propCall_of_ok {s : Parse} {env : OpenHandle} (h : m s.env = (.ok (), env))
    (p : PropLoop) : s.propCall p m = .inl { s with env := env, inner := some (.prop p) } := by
  rw [Parse.propCall, h]

theorem Parse.diinCall_of_ok {s : Parse} {env : OpenHandle} (h : m s.env = (.ok (), env)) :
    s.diinCall m = .inl { s with env := env } := by
  rw [Parse.diinCall, h]

theorem turning_call (hknown : type ≠ .unknown) (count : Frm8 → Frm8)
    (hchunk : ∀ env, frm8Chunk ⟨env, l, none⟩ type = Parse.call ⟨env, l, none⟩ m count) :
    Turning nameLen pos type m ⟨c, l, none⟩ ⟨c', count l, none⟩ where
  known := hknown
  turn h pre post env' hpre hle hread := by
    subst hpre
    have hturn : ¬ l.chunkSize < (between h pre (type.fourcc ++ post)).io.pos :=
      Nat.not_lt.2 (Nat.le_of_add_le_add_right hle)
    simp only [parseTurn, frm8Turn, if_neg hturn, header_between hknown]
    exact (hchunk _).trans (Parse.call_of_ok hread count)

theorem turning_propCall (hknown : type ≠ .unknown) {p p' : PropLoop}
    (hchunk : ∀ env, env.io.pos = pos + 4 →
      propChunk nameLen ⟨env, l, some (.prop p)⟩ p type =
        Parse.propCall ⟨env, l, some (.prop p)⟩ p' m) :
    Turning nameLen pos type m ⟨c, l, some (.prop p)⟩ ⟨c', l, some (.prop p')⟩ where
  known := hknown
  turn h pre post env' hpre hle hread := by
    subst hpre
    have hturn : ¬ p.endPos ≤ (between h pre (type.fourcc ++ post)).io.pos :=
      Nat.not_le.2 (Nat.lt_of_lt_of_le (Nat.lt_add_of_pos_right (by decide)) hle)
    simp only [parseTurn, propTurn, if_neg hturn, header_between hknown]
    have hplace : (pre ++ type.fourcc).length = pre.length + 4 := by
      rw [List.length_append, ChunkType.fourcc_length hknown]
    exact (hchunk _ hplace).trans (Parse.propCall_of_ok hread p')

theorem turning_diinCall (hknown : type ≠ .unknown) {endPos : Nat}
    (hchunk : ∀ env, diinChunk ⟨env, l, some (.diin endPos)⟩ type =
      Parse.diinCall ⟨env, l, some (.diin endPos)⟩ m) :
    Turning nameLen pos type m ⟨c, l, some (.diin endPos)⟩ ⟨c', l, some (.diin endPos)⟩ where
  known := hknown
  turn h pre post env' hpre hle hread := by
    subst hpre
    have hturn : ¬ endPos ≤ (between h pre (type.fourcc ++ post)).io.pos :=
      Nat.not_le.2 (Nat.lt_of_lt_of_le (Nat.lt_add_of_pos_right (by decide)) hle)
    simp only [parseTurn, diinTurn, if_neg hturn, header_between hknown]
    exact (hchunk _).trans (Parse.diinCall_of_ok hread)

end Passes

end DsdNexus.Dsdiff
