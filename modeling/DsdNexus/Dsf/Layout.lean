import DsdNexus.Dsf.Handle

/-! # DSF: the layout of a file

The three chunks at the head of a file have fixed places. Each number in them is written
anew without touching the others, and the head is read back as it was written.
-/

namespace DsdNexus.Dsf

open Program FileProgram Endian

/-! ## The head -/

/-- The numbers of the head that are written anew. -/
structure Numbers where
  fileSize : Nat
  metadataOffset : Nat
  sampleCount : Nat
  chunkSize : Nat

/-- What stands before the size of the file. -/
def dsdStart : Bytes := dsdChunkId ++ toLe 8 dsdChunkSize

/-- What stands in the fmt chunk before the number of samples. -/
def fmtStart (info : FileInfo) : Bytes :=
  fmtChunkId ++ (toLe 8 fmtChunkSize ++ (toLe 4 info.formatVersion.toNat ++
    (toLe 4 info.formatId.toNat ++ (toLe 4 info.channelType.toNat ++
    (toLe 4 info.channelCount.toNat ++ (toLe 4 info.samplingFrequency.toNat ++
    toLe 4 info.bitsPerSample.toNat))))))

/-- What stands behind it. -/
def fmtEnd (info : FileInfo) : Bytes :=
  toLe 4 info.blockSizePerChannel.toNat ++ toLe 4 (0 : UInt32).toNat

/-- A file with its head. -/
def layout (info : FileInfo) (n : Numbers) (body : Bytes) : Bytes :=
  dsdStart ++ (toLe 8 n.fileSize ++ (toLe 8 n.metadataOffset ++ (fmtStart info ++
    (toLe 8 n.sampleCount ++ (fmtEnd info ++ (dataChunkId ++ (toLe 8 n.chunkSize ++ body)))))))

/-- The size of the head. -/
def headSize : Nat := 92

theorem dsdStart_length : dsdStart.length = 12 := by simp [dsdStart, dsdChunkId, makeMarker]

theorem fmtStart_length (info : FileInfo) : (fmtStart info).length = 36 := by
  simp [fmtStart, fmtChunkId, makeMarker]

theorem fmtEnd_length (info : FileInfo) : (fmtEnd info).length = 8 := by simp [fmtEnd]

theorem dataChunkId_length : dataChunkId.length = 4 := rfl

theorem layout_length (info : FileInfo) (n : Numbers) (body : Bytes) :
    (layout info n body).length = headSize + body.length := by
  simp only [layout, List.length_append, toLe_length, dsdStart_length, fmtStart_length,
    fmtEnd_length, dataChunkId_length, headSize]
  omega

theorem layout_append (info : FileInfo) (n : Numbers) (body more : Bytes) :
    layout info n body ++ more = layout info n (body ++ more) := by
  simp only [layout, List.append_assoc]

/-! ## Writing a number anew -/

theorem ioSeekSet_of_le {p : Nat} (h : p ≤ ByteFile.offMax) (f : ByteFile) :
    ioSeekSet p f = (.ok (), { f with pos := p }) := by
  unfold ioSeekSet
  exact seek_of_le Error.generic h f

/-- The place of a number is known by what stands before it. -/
theorem chunkUpdate_over {pre old : Bytes} (post : Bytes) (value : Nat) {pos offset : Nat}
    (hoffset : pre.length = offset) (hold : old.length = 8)
    (hroom : offset + 8 ≤ ByteFile.offMax) (hpos : pos ≤ ByteFile.offMax) :
    chunkUpdate offset value ⟨pre ++ (old ++ post), pos⟩ =
      (.ok (), ⟨pre ++ (toLe 8 value ++ post), pos⟩) := by
  subst hoffset
  have hwrite : restoring pos (ioWriteUint64Le value) ⟨pre ++ (old ++ post), pre.length⟩ =
      (.ok (), ⟨pre ++ (toLe 8 value ++ post), pre.length + 8⟩) := by
    have hover := (writes_emit Error.write (toLe 8 value)).over pre post
      (hold.trans (toLe_length 8 value).symm) (by rw [toLe_length]; exact hroom)
    rw [toLe_length] at hover
    simp only [restoring, ioWriteUint64Le, ioWriteBytes, hover]
  have hthere := ioSeekSet_of_le (show pre.length ≤ ByteFile.offMax by omega)
    ⟨pre ++ (old ++ post), pos⟩
  have hback := ioSeekSet_of_le hpos ⟨pre ++ (toLe 8 value ++ post), pre.length + 8⟩
  rw [chunkUpdate, bind_of_ok (tell_apply _), bind_of_ok hthere, bind_of_ok hwrite]
  exact hback

theorem chunkUpdateFileSize_layout (info : FileInfo) (n : Numbers) (body : Bytes) {pos : Nat}
    (hpos : pos ≤ ByteFile.offMax) (value : Nat) :
    chunkUpdateFileSize value ⟨layout info n body, pos⟩ =
      (.ok (), ⟨layout info { n with fileSize := value } body, pos⟩) :=
  chunkUpdate_over _ value dsdStart_length (toLe_length _ _) (by decide) hpos

theorem chunkUpdateMetadataOffset_layout (info : FileInfo) (n : Numbers) (body : Bytes) {pos : Nat}
    (hpos : pos ≤ ByteFile.offMax) (value : Nat) :
    chunkUpdateMetadataOffset value ⟨layout info n body, pos⟩ =
      (.ok (), ⟨layout info { n with metadataOffset := value } body, pos⟩) := by
  have hlength : (dsdStart ++ toLe 8 n.fileSize).length = 20 := by
    rw [List.length_append, dsdStart_length, toLe_length]
  have hupdate := chunkUpdate_over (fmtStart info ++ (toLe 8 n.sampleCount ++ (fmtEnd info ++
    (dataChunkId ++ (toLe 8 n.chunkSize ++ body))))) value hlength (toLe_length 8 n.metadataOffset) (by decide) hpos
  simpa only [layout, List.append_assoc, chunkUpdateMetadataOffset] using hupdate

theorem chunkUpdateSampleCount_layout (info : FileInfo) (n : Numbers) (body : Bytes) {pos : Nat}
    (hpos : pos ≤ ByteFile.offMax) (value : Nat) :
    chunkUpdateSampleCount value ⟨layout info n body, pos⟩ =
      (.ok (), ⟨layout info { n with sampleCount := value } body, pos⟩) := by
  have hlength : (dsdStart ++ (toLe 8 n.fileSize ++ (toLe 8 n.metadataOffset ++
      fmtStart info))).length = dsdChunkSize + 36 := by
    simp only [List.length_append, dsdStart_length, toLe_length, fmtStart_length, dsdChunkSize]
  have hupdate := chunkUpdate_over (fmtEnd info ++ (dataChunkId ++ (toLe 8 n.chunkSize ++ body)))
    value hlength
    (toLe_length 8 n.sampleCount) (by decide) hpos
  simpa only [layout, List.append_assoc, chunkUpdateSampleCount] using hupdate

theorem chunkUpdateDataSize_layout (info : FileInfo) (n : Numbers) (body : Bytes) {pos size : Nat}
    (hpos : pos ≤ ByteFile.offMax) (hsize : size + dataChunkHeaderSize < 2 ^ 64) :
    chunkUpdateDataSize size ⟨layout info n body, pos⟩ =
      (.ok (), ⟨layout info { n with chunkSize := dataChunkHeaderSize + size } body, pos⟩) := by
  have hlength : (dsdStart ++ (toLe 8 n.fileSize ++ (toLe 8 n.metadataOffset ++ (fmtStart info ++
      (toLe 8 n.sampleCount ++ (fmtEnd info ++ dataChunkId)))))).length =
      dsdChunkSize + fmtChunkSize + 4 := by
    simp only [List.length_append, dsdStart_length, toLe_length, fmtStart_length, fmtEnd_length,
      dataChunkId_length, dsdChunkSize, fmtChunkSize]
  have hupdate := chunkUpdate_over body (dataChunkHeaderSize + size) hlength (toLe_length 8 n.chunkSize) (by decide) hpos
  have hadd : uint64Add dataChunkHeaderSize size = some (dataChunkHeaderSize + size) :=
    if_neg (by omega)
  rw [chunkUpdateDataSize, hadd]
  simpa only [layout, List.append_assoc, chunkUpdate] using hupdate

/-! ## Reading the head -/

theorem reads_uint32 (n : UInt32) : Reads ioReadUint32Le (toLe 4 n.toNat) n := by
  have hread : Reads (ioReadBytes 4) (toLe 4 n.toNat) (toLe 4 n.toNat) := by
    have h := reads_exact Error.read (toLe 4 n.toNat)
    rwa [toLe_length] at h
  have hvalue : UInt32.ofNat (ofLe (toLe 4 n.toNat)) = n := by
    rw [ofLe_toLe_of_lt n.toNat_lt, UInt32.ofNat_toNat]
  have h := hread.map fun bytes => UInt32.ofNat (ofLe bytes)
  rwa [hvalue] at h

theorem two_pow_64 : 2 ^ 64 = 256 ^ 8 := by norm_num

theorem reads_uint64 {n : Nat} (hn : n < 2 ^ 64) : Reads ioReadUint64Le (toLe 8 n) n := by
  have hread : Reads (ioReadBytes 8) (toLe 8 n) (toLe 8 n) := by
    have h := reads_exact Error.read (toLe 8 n)
    rwa [toLe_length] at h
  have hvalue : ofLe (toLe 8 n) = n := ofLe_toLe_of_lt (hn.trans_eq two_pow_64)
  have h := hread.map ofLe
  rwa [hvalue] at h

theorem reads_chunkId (id : Bytes) (h : id.length = 4) : Reads ioReadChunkId id id := by
  have hread := reads_exact Error.read id
  rwa [h] at hread

theorem reads_dsdHeader {fileSize metadataOffset : Nat} (hsize : fileSize < 2 ^ 64)
    (hoffset : metadataOffset < 2 ^ 64) :
    Reads chunkReadDsdHeader (dsdStart ++ (toLe 8 fileSize ++ toLe 8 metadataOffset))
      (fileSize, metadataOffset) := by
  have h : Reads chunkReadDsdHeader
      (dsdChunkId ++ (toLe 8 dsdChunkSize ++ (toLe 8 fileSize ++ (toLe 8 metadataOffset ++ []))))
      (fileSize, metadataOffset) :=
    (reads_chunkId dsdChunkId rfl).bind <| .check rfl <|
    (reads_uint64 (by decide)).bind <| .check rfl <|
    (reads_uint64 hsize).bind <| (reads_uint64 hoffset).bind <| .pure _
  rwa [List.append_nil, ← List.append_assoc] at h

/-- A record with which `dsf_chunk_write_fmt` writes a chunk. -/
structure FileInfo.Writable (info : FileInfo) : Prop where
  version : info.formatVersion = Dsf.formatVersion
  formatId : info.formatId = formatDsdRaw
  channelType : isValidChannelType info.channelType = true
  channelCount : isValidChannelCount info.channelCount = true
  samplingFrequency : isValidSampleRate info.samplingFrequency = true
  bitsPerSample : isValidBitsPerSample info.bitsPerSample = true
  blockSize : info.blockSizePerChannel.toNat = Dsf.blockSizePerChannel

/-- What `dsf_chunk_read_fmt` makes of the chunk. -/
def FileInfo.readBack (info : FileInfo) (sampleCount : Nat) : FileInfo :=
  { FileInfo.zero with
    formatVersion := info.formatVersion
    formatId := info.formatId
    channelType := info.channelType
    channelCount := info.channelCount
    samplingFrequency := info.samplingFrequency
    bitsPerSample := info.bitsPerSample
    sampleCount := sampleCount
    blockSizePerChannel := info.blockSizePerChannel
    audioDataSize := calculateAudioDataSize info.channelCount sampleCount info.bitsPerSample
    bitRate := calculateBitRate info.channelCount info.samplingFrequency info.bitsPerSample }

theorem reads_fmt {info : FileInfo} (h : info.Writable) {sampleCount : Nat}
    (hcount : sampleCount < 2 ^ 64) :
    Reads chunkReadFmt (fmtStart info ++ (toLe 8 sampleCount ++ fmtEnd info))
      (info.readBack sampleCount) := by
  have hread : Reads chunkReadFmt
      (fmtChunkId ++ (toLe 8 fmtChunkSize ++ (toLe 4 info.formatVersion.toNat ++
        (toLe 4 info.formatId.toNat ++ (toLe 4 info.channelType.toNat ++
        (toLe 4 info.channelCount.toNat ++ (toLe 4 info.samplingFrequency.toNat ++
        (toLe 4 info.bitsPerSample.toNat ++ (toLe 8 sampleCount ++
        (toLe 4 info.blockSizePerChannel.toNat ++ (toLe 4 (0 : UInt32).toNat ++ [])))))))))))
      (info.readBack sampleCount) :=
    (reads_chunkId fmtChunkId rfl).bind <| .check rfl <|
    (reads_uint64 (by decide)).bind <| .check rfl <|
    (reads_uint32 _).bind <| .check h.version <|
    (reads_uint32 _).bind <| .check h.formatId <|
    (reads_uint32 _).bind <| .check h.channelType <|
    (reads_uint32 _).bind <| .check h.channelCount <|
    (reads_uint32 _).bind <| .check h.samplingFrequency <|
    (reads_uint32 _).bind <| .check h.bitsPerSample <|
    (reads_uint64 hcount).bind <|
    (reads_uint32 _).bind <| .check h.blockSize <|
    (reads_uint32 0).bind <| .pure _
  simpa only [fmtStart, fmtEnd, List.append_assoc, List.append_nil] using hread

/-- The head of the data chunk tells where the data start. -/
theorem chunkReadDataHeader_at (pre post : Bytes) {size : Nat} (hlow : dataChunkHeaderSize ≤ size)
    (hhigh : size ≤ maxReasonableChunkSize) :
    chunkReadDataHeader ⟨pre ++ (dataChunkId ++ (toLe 8 size ++ post)), pre.length⟩ =
      (.ok (size - dataChunkHeaderSize, pre.length + dataChunkHeaderSize),
        ⟨pre ++ (dataChunkId ++ (toLe 8 size ++ post)), pre.length + dataChunkHeaderSize⟩) := by
  have hid := reads_chunkId dataChunkId rfl pre (toLe 8 size ++ post)
  have hsize := reads_uint64 (n := size) (hhigh.trans_lt (by decide)) (pre ++ dataChunkId) post
  rw [List.append_assoc, List.length_append, toLe_length] at hsize
  rw [chunkReadDataHeader, bind_of_ok hid, require_bind rfl, bind_of_ok hsize, require_bind hlow,
    require_bind hhigh]
  rfl

/-- A data chunk past the limit is refused. -/
theorem chunkReadDataHeader_past (pre post : Bytes) {size : Nat} (hsize64 : size < 2 ^ 64)
    (hhigh : maxReasonableChunkSize < size) :
    ∃ io, chunkReadDataHeader ⟨pre ++ (dataChunkId ++ (toLe 8 size ++ post)), pre.length⟩ =
      (.error .invalidChunk, io) := by
  have hlow : dataChunkHeaderSize ≤ size := le_trans (by decide) hhigh.le
  have hid := reads_chunkId dataChunkId rfl pre (toLe 8 size ++ post)
  have hsize := reads_uint64 hsize64 (pre ++ dataChunkId) post
  rw [List.append_assoc, List.length_append, toLe_length] at hsize
  rw [chunkReadDataHeader, bind_of_ok hid, require_bind rfl, bind_of_ok hsize, require_bind hlow,
    require_bind_not (Nat.not_le.2 hhigh)]
  exact ⟨_, rfl⟩

/-! ## Opening a file -/

/-- The numbers fit their fields, and the data chunk is no longer than `dsf_open` takes. -/
structure Numbers.Fit (n : Numbers) : Prop where
  fileSize : n.fileSize < 2 ^ 64
  metadataOffset : n.metadataOffset < 2 ^ 64
  sampleCount : n.sampleCount < 2 ^ 64
  headed : dataChunkHeaderSize ≤ n.chunkSize
  chunkSize : n.chunkSize < 2 ^ 64

section Open

variable {info : FileInfo} {n : Numbers} {body : Bytes}

/-- The first two chunks are read. -/
theorem heads_read (body : Bytes) (hinfo : info.Writable) (hn : n.Fit) :
    let content := layout info n body
    let pre := dsdStart ++ (toLe 8 n.fileSize ++ toLe 8 n.metadataOffset)
    let chunks := pre ++ (fmtStart info ++ (toLe 8 n.sampleCount ++ fmtEnd info))
    chunkReadDsdHeader ⟨content, 0⟩ =
        (.ok (n.fileSize, n.metadataOffset), ⟨content, pre.length⟩) ∧
      chunkReadFmt ⟨content, pre.length⟩ =
        (.ok (info.readBack n.sampleCount), ⟨content, chunks.length⟩) ∧
      content = chunks ++ (dataChunkId ++ (toLe 8 n.chunkSize ++ body)) ∧
      chunks.length + dataChunkHeaderSize = headSize := by
  intro content pre chunks
  have hcontent : content = chunks ++ (dataChunkId ++ (toLe 8 n.chunkSize ++ body)) := by
    simp only [content, chunks, pre, layout, List.append_assoc]
  have hdsd := reads_dsdHeader hn.fileSize hn.metadataOffset []
    (fmtStart info ++ (toLe 8 n.sampleCount ++ fmtEnd info) ++
      (dataChunkId ++ (toLe 8 n.chunkSize ++ body)))
  have hfmt := reads_fmt hinfo hn.sampleCount pre (dataChunkId ++ (toLe 8 n.chunkSize ++ body))
  have hsame : pre ++ (fmtStart info ++ (toLe 8 n.sampleCount ++ fmtEnd info) ++
      (dataChunkId ++ (toLe 8 n.chunkSize ++ body))) = content := by
    rw [hcontent]
    simp only [chunks, List.append_assoc]
  rw [List.nil_append, hsame, List.length_nil, Nat.zero_add] at hdsd
  rw [hsame, ← List.length_append] at hfmt
  refine ⟨hdsd, hfmt, hcontent, ?_⟩
  simp only [chunks, pre, List.length_append, dsdStart_length, toLe_length, fmtStart_length,
    fmtEnd_length, dataChunkHeaderSize, headSize]

theorem readFileStructure_layout (hinfo : info.Writable) (hn : n.Fit)
    (hsize : n.chunkSize ≤ maxReasonableChunkSize) {settled : FileInfo}
    (hsettle : settleInfo (n.chunkSize - dataChunkHeaderSize)
      { info.readBack n.sampleCount with audioDataOffset := headSize } = pure settled) :
    readFileStructure ⟨reset, ⟨layout info n body, 0⟩⟩ =
      readMetadataOf n.metadataOffset
        ⟨{ reset with info := settled }, ⟨layout info n body, headSize⟩⟩ := by
  obtain ⟨hdsd, hfmt, hcontent, hlength⟩ := heads_read body hinfo hn
  have hdata := chunkReadDataHeader_at (dsdStart ++ (toLe 8 n.fileSize ++
    toLe 8 n.metadataOffset) ++ (fmtStart info ++ (toLe 8 n.sampleCount ++ fmtEnd info)))
    body hn.headed hsize
  rw [← hcontent, hlength] at hdata
  simp only [readFileStructure, bind_apply, liftIo, zoom_apply, update, modify_apply, hdsd, hfmt,
    hdata, hsettle, pure_apply]

theorem readFileStructure_past (hinfo : info.Writable) (hn : n.Fit)
    (hsize : maxReasonableChunkSize < n.chunkSize) :
    ∃ s, readFileStructure ⟨reset, ⟨layout info n body, 0⟩⟩ = (.error .invalidChunk, s) := by
  obtain ⟨hdsd, hfmt, hcontent, hlength⟩ := heads_read body hinfo hn
  obtain ⟨io, hdata⟩ := chunkReadDataHeader_past (dsdStart ++ (toLe 8 n.fileSize ++
    toLe 8 n.metadataOffset) ++ (fmtStart info ++ (toLe 8 n.sampleCount ++ fmtEnd info)))
    body hn.chunkSize hsize
  rw [← hcontent] at hdata
  refine ⟨⟨{ reset with info := info.readBack n.sampleCount }, io⟩, ?_⟩
  simp only [readFileStructure, bind_apply, liftIo, zoom_apply, update, modify_apply, hdsd, hfmt,
    hdata]

/-! ### The metadata -/

theorem readMetadataOf_zero (s : OpenHandle) : readMetadataOf 0 s = (.ok (), s) :=
  if_neg fun h => Nat.lt_irrefl 0 h.1

/-- The metadata are what stands from their offset to the end of the file. -/
theorem chunkReadMetadata_end {pre metadata : Bytes} {pos : Nat} (hpre : pre ≠ [])
    (hne : metadata ≠ []) (hle : metadata.length ≤ maxReasonableMetadataSize)
    (hroom : (pre ++ metadata).length ≤ ByteFile.offMax) :
    chunkReadMetadata pre.length ⟨pre ++ metadata, pos⟩ =
      (.ok metadata, ⟨pre ++ metadata, (pre ++ metadata).length⟩) := by
  have hsize : (pre ++ metadata).length - pre.length = metadata.length := by
    rw [List.length_append]
    omega
  have hpos : 0 < metadata.length := List.length_pos_iff.2 hne
  have hlength : (pre ++ metadata).length = pre.length + metadata.length := List.length_append
  have hoff : pre.length ≤ ByteFile.offMax := by omega
  have hseek := ioSeekSet_of_le hoff ⟨pre ++ metadata, pos⟩
  have hread := reads_exact Error.read metadata pre []
  rw [List.append_nil, ← hlength] at hread
  have hint : int64 pre.length = pre.length := int64_of_lt (hoff.trans_lt (by decide))
  have hfile : ioGetFileSize ⟨pre ++ metadata, pos⟩ =
      (.ok (pre ++ metadata).length, ⟨pre ++ metadata, pos⟩) := rfl
  have halloc : metadata.length ≤ maxAllocSize := hle.trans (by decide)
  have hsome : pre.length ≠ 0 := fun h => hpre (List.length_eq_zero_iff.1 h)
  rw [chunkReadMetadata, require_bind hsome, bind_of_ok hfile, require_bind (by omega)]
  rw [require_bind (hsize.le.trans hle), saMalloc, require_bind (hsize.le.trans halloc), hint,
    bind_of_ok hseek, hsize]
  exact hread

theorem readMetadataOf_end {h : Handle} {pre metadata : Bytes} {pos : Nat} (hpre : pre ≠ [])
    (hne : metadata ≠ []) (hle : metadata.length ≤ maxReasonableMetadataSize)
    (hroom : (pre ++ metadata).length ≤ ByteFile.offMax) (hmode : h.mode ≠ .write) :
    readMetadataOf pre.length ⟨h, ⟨pre ++ metadata, pos⟩⟩ =
      (.ok (), ⟨{ h with metadata := metadata }, ⟨pre ++ metadata, (pre ++ metadata).length⟩⟩) := by
  rw [readMetadataOf, if_pos ⟨List.length_pos_iff.2 hpre, hmode⟩]
  simp only [chunkReadMetadata_end hpre hne hle hroom]

end Open

end DsdNexus.Dsf
