import DsdNexus.Dsdiff.Chunks

/-! # DSDIFF: the handle, writing a file and finalizing it

`dsdiff.c`: a handle is filled in by the setters, `dsdiff_create` writes the head of the
file, the audio follows, and `dsdiff_finalize` appends the metadata and patches the sizes
into the head.
-/

namespace DsdNexus.Dsdiff

open Program FileProgram

/-- `dsdiff_file_mode_t`. -/
inductive FileMode where
  | closed
  | read
  | write
  | modify
deriving DecidableEq

/-- `dsdiff_s`, without its file. -/
structure Handle where
  mode : FileMode
  formatVersion : UInt32
  fileSizeAfterFinalize : Nat
  channelCount : UInt16
  channelIds : Option (List ChannelId)
  sampleRate : UInt32
  sampleFrameCount : Nat
  propChunkSize : Nat
  soundDataSize : Nat
  soundDataStartPos : Nat
  soundDataEndPos : Nat
  hasTimecode : Bool
  startTimecode : Timecode
  timecodeChunkPos : Nat
  hasLoudspeakerConfig : Bool
  loudspeakerConfig : UInt16
  loudspeakerChunkPos : Nat
  commentCount : UInt16
  comments : List Comment
  commentChunkPos : Nat
  id3Tag : List UInt8
  id3ChunkPos : Nat
  trackId3Tags : List (List UInt8)
  hasManufacturer : Bool
  manufacturerId : List UInt8
  manufacturerDataSize : UInt32
  manufacturerData : List UInt8
  manufacturerChunkPos : Nat
  hasDiscArtist : Bool
  discArtist : Option (List UInt8)
  hasDiscTitle : Bool
  discTitle : Option (List UInt8)
  hasEmid : Bool
  emid : Option (List UInt8)
  diinChunkPos : Nat
  markers : List MarkerEntry
  isDstFormat : Bool
  dstFrameCount : UInt32
  dstFrameRate : UInt16
  dstDataEnd : Nat
  hasCrc : Bool
  crcSize : UInt32
  hasIndex : Bool
  reservedIndexCount : UInt32
  indexes : List Index
  indexFileStart : Nat
  indexFileEnd : Nat
  indexFileSize : Nat
  channelChunkPos : Nat
deriving DecidableEq

/-- `dsdiff_new`: zeroes and `dsdiff_init_handle`. -/
def new : Handle where
  mode := .closed
  formatVersion := 0x01050000
  fileSizeAfterFinalize := 0
  channelCount := 1
  channelIds := none
  sampleRate := 0
  sampleFrameCount := 0
  propChunkSize := 0
  soundDataSize := 0
  soundDataStartPos := 0
  soundDataEndPos := 0
  hasTimecode := false
  startTimecode := ⟨0, 0, 0, 0⟩
  timecodeChunkPos := 0
  hasLoudspeakerConfig := false
  loudspeakerConfig := 0
  loudspeakerChunkPos := 0
  commentCount := 0
  comments := []
  commentChunkPos := 0
  id3Tag := []
  id3ChunkPos := 0
  trackId3Tags := []
  hasManufacturer := false
  manufacturerId := [0, 0, 0, 0]
  manufacturerDataSize := 0
  manufacturerData := []
  manufacturerChunkPos := 0
  hasDiscArtist := false
  discArtist := none
  hasDiscTitle := false
  discTitle := none
  hasEmid := false
  emid := none
  diinChunkPos := 0
  markers := []
  isDstFormat := false
  dstFrameCount := 0
  dstFrameRate := 75
  dstDataEnd := 0
  hasCrc := false
  crcSize := 0
  hasIndex := false
  reservedIndexCount := 0
  indexes := []
  indexFileStart := 0
  indexFileEnd := 0
  indexFileSize := 0
  channelChunkPos := 0

/-! ## Setting the metadata -/

/-- `dsdiff_is_chunk_writable`. -/
def isChunkWritable (h : Handle) (position : Nat) : Bool :=
  position = 0 ||
    !(h.mode = .modify && decide (position < if h.isDstFormat then h.dstDataEnd
      else h.soundDataEndPos))

/-- The checks before a chunk at the position may be changed. -/
def checkWritable (h : Handle) (position : Nat) : Except Error Unit :=
  if h.mode ≠ .write ∧ h.mode ≠ .modify then .error .modeReadOnly
  else if isChunkWritable h position then .ok ()
  else .error .chunkLocked

/-- `dsdiff_set_start_timecode`. -/
def setStartTimecode (h : Handle) (startTimecode : Timecode) : Except Error Handle :=
  if h.mode ≠ .closed ∧ h.mode ≠ .modify then .error .postCreateForbidden
  else if h.mode = .modify ∧ h.hasTimecode = false then .error .noTimecode
  else .ok { h with startTimecode := startTimecode, hasTimecode := true }

/-- `dsdiff_set_loudspeaker_config`. -/
def setLoudspeakerConfig (h : Handle) (loudspeakerConfig : UInt16) : Except Error Handle :=
  if h.mode = .modify ∧ h.hasLoudspeakerConfig = false then .error .noLsconfig
  else .ok { h with loudspeakerConfig := loudspeakerConfig, hasLoudspeakerConfig := true }

/-- A copy of a text, in a buffer whose size with the terminator is taken in 32 bits: a
longer text is copied without one. -/
def copyText (text : List UInt8) : Except Error (List UInt8) :=
  if 2 ^ 32 ≤ text.length + 1 then .error .undefined
  else if maxAllocSize < text.length + 1 then .error .outOfMemory
  else .ok text

/-- `dsdiff_add_comment`. -/
def addComment (h : Handle) (comment : Comment) : Except Error Handle := do
  checkWritable h h.commentChunkPos
  if comment.text ≠ [] ∧ 0 < comment.textLength then
    if comment.text.length < comment.textLength.toNat then throw .undefined
    let text ← copyText (comment.text.take comment.textLength.toNat)
    return { h with
      comments := h.comments ++ [{ comment with text := text }], commentCount := h.commentCount + 1 }
  return { h with
    comments := h.comments ++ [{ comment with text := [] }], commentCount := h.commentCount + 1 }

/-- `dsdiff_set_id3_tag`. -/
def setId3Tag (h : Handle) (tagData : List UInt8) : Except Error Handle := do
  if tagData = [] then throw .invalidArg
  checkWritable h h.id3ChunkPos
  if maxAllocSize < tagData.length then throw .outOfMemory
  return { h with id3Tag := tagData }

/-- `dsdiff_set_manufacturer`. -/
def setManufacturer (h : Handle) (manufacturer : Manufacturer) : Except Error Handle := do
  checkWritable h h.manufacturerChunkPos
  let data := if 0 < manufacturer.dataSize then manufacturer.data.take manufacturer.dataSize.toNat
    else []
  if maxAllocSize < data.length then throw .outOfMemory
  return { h with
    manufacturerId := manufacturer.manId, manufacturerData := data,
    manufacturerDataSize := manufacturer.dataSize, hasManufacturer := true }

/-- `dsdiff_set_emid`. -/
def setEmid (h : Handle) (emid : List UInt8) : Except Error Handle := do
  checkWritable h h.diinChunkPos
  let copy ← copyText (cstring emid)
  return { h with emid := some copy, hasEmid := true }

/-- `dsdiff_set_disc_artist`. -/
def setDiscArtist (h : Handle) (discArtist : List UInt8) : Except Error Handle := do
  checkWritable h h.diinChunkPos
  let copy ← copyText (cstring discArtist)
  return { h with discArtist := some copy, hasDiscArtist := true }

/-- `dsdiff_set_disc_title`. -/
def setDiscTitle (h : Handle) (discTitle : List UInt8) : Except Error Handle := do
  checkWritable h h.diinChunkPos
  let copy ← copyText (cstring discTitle)
  return { h with discTitle := some copy, hasDiscTitle := true }

/-! ## Creating a file -/

/-- `dsdiff_set_default_channel_ids`. -/
def defaultChannelIds (channelCount : UInt16) : List ChannelId :=
  if channelCount = 2 then [ChannelId.slft, ChannelId.srgt]
  else if channelCount = 5 then
    [ChannelId.mlft, ChannelId.mrgt, ChannelId.c, ChannelId.ls, ChannelId.rs]
  else if channelCount = 6 then
    [ChannelId.mlft, ChannelId.mrgt, ChannelId.c, ChannelId.lfe, ChannelId.ls, ChannelId.rs]
  else List.replicate channelCount.toNat ChannelId.c

/-- The compression names `dsdiff_create` gives. -/
def compressionName : AudioType → List UInt8
  | .dst => ['D', 'S', 'T', ' ', 'E', 'n', 'c', 'o', 'd', 'e', 'd'].map Char.toUInt8
  | _ => ['n', 'o', 't', ' ', 'c', 'o', 'm', 'p', 'r', 'e', 's', 's', 'e', 'd'].map Char.toUInt8

/-- The sub-chunks of PROP `dsdiff_create` writes; the positions of CHNL, ABSS and LSCO. -/
def writeProp (h : Handle) (fileType : AudioType) : Io (Nat × Nat × Nat) := do
  chunkWritePropHeader 0
  chunkWriteFs h.sampleRate
  let channelChunkPos ← tell
  chunkWriteChnl h.channelCount h.channelIds
  require (fileType ≠ .unknown) .invalidArg
  chunkWriteCmpr fileType (compressionName fileType)
  let timecodeChunkPos ← tell
  when h.hasTimecode (chunkWriteAbss h.startTimecode)
  let loudspeakerChunkPos ← tell
  when h.hasLoudspeakerConfig (chunkWriteLsco h.loudspeakerConfig)
  pure (channelChunkPos, if h.hasTimecode then timecodeChunkPos else 0,
    if h.hasLoudspeakerConfig then loudspeakerChunkPos else 0)

/-- `dsdiff_create`, on the empty file it opens. -/
def create (h : Handle) (fileType : AudioType) (channelCount sampleBits : UInt16)
    (sampleRate : UInt32) : Io Handle := do
  require (1 ≤ channelCount ∧ channelCount ≤ 1000) .invalidChannels
  require (sampleBits = 1) .invalidArg
  require (h.mode = .closed) .alreadyOpen
  let h := { h with
    mode := .write, sampleFrameCount := 0, propChunkSize := 0, soundDataSize := 0,
    soundDataStartPos := 0, soundDataEndPos := 0, dstFrameCount := 0,
    isDstFormat := fileType ≠ .dsd, sampleRate := sampleRate, channelCount := channelCount,
    channelIds := some (defaultChannelIds channelCount) }
  chunkWriteFrm8Header 0
  chunkWriteFver h.formatVersion
  let startChunkPos ← tell
  let (channelChunkPos, timecodeChunkPos, loudspeakerChunkPos) ← writeProp h fileType
  let endChunkPos ← tell
  let h := { h with
    channelChunkPos := channelChunkPos, timecodeChunkPos := timecodeChunkPos,
    loudspeakerChunkPos := loudspeakerChunkPos,
    propChunkSize := endChunkPos - startChunkPos - 12 }
  if fileType = .dsd then
    let (startPos, _) ← chunkWriteSndHeader 0
    pure { h with soundDataStartPos := startPos, soundDataEndPos := startPos }
  else
    let (startPos, _) ← chunkWriteDstHeader 0
    chunkWriteFrte h.dstFrameCount h.dstFrameRate
    pure { h with
      soundDataSize := 4 + 8 + 4 + 2, soundDataStartPos := startPos, soundDataEndPos := startPos }

/-! ## Writing the audio -/

/-- `DSDIFF_MAX_DATA_SIZE`. -/
def maxDataSize : Nat := 2 ^ 63 - 1 - 100000

/-- `dsdiff_write_dsd_data`. -/
def writeDsdData (h : Handle) (buffer : List UInt8) : Io Handle := do
  require (h.mode ≠ .closed) .notOpen
  require (h.mode = .write) .modeReadOnly
  require (h.isDstFormat = false) .requiresDsd
  if buffer = [] then
    pure h
  else
    require (h.soundDataSize + buffer.length ≤ maxDataSize) .maxFileSize
    ioWriteBytes buffer
    pure { h with
      sampleFrameCount := h.sampleFrameCount + buffer.length / h.channelCount.toNat,
      soundDataSize := h.soundDataSize + buffer.length,
      soundDataEndPos := h.soundDataEndPos + buffer.length }

/-- The size of a chunk of so many bytes as it is counted, with its id, its size field and
the pad byte. The sum is taken in 32 bits. -/
def chunkSpace (size : Nat) : Nat := (size + 12) % 2 ^ 32 + (size + 12) % 2 ^ 32 % 2

/-- `sizeof(dsdiff_index_t)`. -/
def indexSize : Nat := 16

/-- `dsdiff_write_dst_frame_internal`. -/
def writeDstFrameInternal (h : Handle) (dstData : List UInt8) : Io Handle := do
  require (h.mode ≠ .closed) .notOpen
  require (h.mode = .write) .modeReadOnly
  require (h.isDstFormat = true) .requiresDst
  if dstData = [] then
    pure h
  else
    require (h.soundDataSize + dstData.length ≤ maxDataSize) .maxFileSize
    let curFilePos ← chunkWriteDstf dstData
    let frameCount := h.dstFrameCount + 1
    let reservedIndexCount :=
      if h.reservedIndexCount ≤ frameCount then h.reservedIndexCount + 1000
      else h.reservedIndexCount
    require (frameCount < h.reservedIndexCount ∨
      reservedIndexCount.toNat * indexSize ≤ maxAllocSize) .outOfMemory
    pure { h with
      dstFrameCount := frameCount,
      soundDataSize := h.soundDataSize + chunkSpace dstData.length,
      reservedIndexCount := reservedIndexCount,
      indexes := h.indexes ++ [⟨curFilePos, UInt32.ofNat dstData.length⟩] }

/-- `dsdiff_write_dst_frame`. -/
def writeDstFrame (h : Handle) (dstData : List UInt8) : Io Handle := do
  require (h.hasCrc = false) .crcAlreadyPresent
  writeDstFrameInternal h dstData

/-- `dsdiff_write_dst_frame_with_crc`. -/
def writeDstFrameWithCrc (h : Handle) (dstData crcData : List UInt8) : Io Handle := do
  let h := if h.dstFrameCount = 0 then { h with hasCrc := true } else h
  let h ← writeDstFrameInternal h dstData
  if h.hasCrc = true ∧ crcData ≠ [] then
    chunkWriteDstc crcData
    pure { h with soundDataSize := h.soundDataSize + chunkSpace crcData.length }
  else
    pure h

/-! ## Finalizing -/

/-- `dsdiff_timecode_normalize`. -/
def timecodeNormalize (timecode : Timecode) (sampleRate : UInt32) : Timecode :=
  if sampleRate = 0 then timecode
  else
    let totalSeconds := (timecode.samples / sampleRate).toNat + timecode.seconds.toNat
    let totalMinutes := totalSeconds / 60 + timecode.minutes.toNat
    let totalHours := totalMinutes / 60 + timecode.hours.toNat
    { hours := UInt16.ofNat totalHours, minutes := UInt8.ofNat (totalMinutes % 60),
      seconds := UInt8.ofNat (totalSeconds % 60), samples := timecode.samples % sampleRate }

/-- What `dsdiff_marker_list_get` makes of an entry; the rest of the marker is zero. -/
def MarkerEntry.marker (entry : MarkerEntry) : Marker where
  time := entry.time
  markType := entry.markType
  markChannel := 0
  trackFlags := 0
  offset := 0
  textLength := 0
  markerText := entry.markerText

/-- The loop over the markers in `dsdiff_write_diin`. -/
def writeMarkers : List MarkerEntry → Io Unit
  | [] => pure ()
  | entry :: entries => do
    chunkWriteMark entry.marker
    writeMarkers entries

/-- A text of the handle, where it has one; its length is taken by `strlen`. -/
def writeText (has : Bool) (text : Option (List UInt8)) (write : List UInt8 → Io Unit) : Io Unit :=
  when has
    (match text with
    | some text => write (cstring text)
    | none => fail .undefined)

/-- The chunks in DIIN. -/
def writeDiinContents (h : Handle) : Io Unit := do
  writeText h.hasEmid h.emid chunkWriteEmid
  writeMarkers h.markers
  writeText h.hasDiscArtist h.discArtist chunkWriteDiar
  writeText h.hasDiscTitle h.discTitle chunkWriteDiti

/-- `dsdiff_write_diin`: the head is written again once the size is known. -/
def writeDiin (h : Handle) : Io Unit :=
  when (h.hasEmid ∨ h.hasDiscArtist ∨ h.hasDiscTitle ∨ h.markers ≠ []) (do
    let curFilePos ← tell
    chunkWriteDiinHeader 0
    writeDiinContents h
    let endFilePos ← tell
    ioSeekSet curFilePos
    chunkWriteDiinHeader (endFilePos - curFilePos - 12)
    ioSeekSet endFilePos)

/-- `dsdiff_write_index`. -/
def writeIndex (h : Handle) : Io Unit :=
  when (h.isDstFormat ∧ h.dstFrameCount ≠ 0 ∧ h.mode ≠ .modify)
    (chunkWriteDstiContents (h.indexes.take h.dstFrameCount.toNat))

/-- The loop over the tags of the tracks in `dsdiff_finalize`. -/
def writeTrackId3s : List (List UInt8) → Io Unit
  | [] => pure ()
  | tag :: tags => do
    when (tag ≠ []) (chunkWriteId3 tag)
    writeTrackId3s tags

/-- The first half of `dsdiff_finalize`: what goes behind the audio. -/
def writeMetadata (h : Handle) : Io Unit := do
  writePadOf h.soundDataSize
  when (isChunkWritable h h.diinChunkPos) (writeDiin h)
  writeIndex h
  when (h.commentCount ≠ 0 ∧ isChunkWritable h h.commentChunkPos)
    (chunkWriteComt h.commentCount h.comments)
  when (h.id3Tag ≠ [] ∧ isChunkWritable h h.id3ChunkPos) (chunkWriteId3 h.id3Tag)
  writeTrackId3s h.trackId3Tags
  when (h.hasManufacturer ∧ isChunkWritable h h.manufacturerChunkPos)
    (chunkWriteManf h.manufacturerId h.manufacturerData h.manufacturerDataSize)

/-- The head of the sound data, written again with its size. -/
def rewriteSoundHeader (h : Handle) (filePos : Nat) : Io Handle :=
  if h.mode = .write then do
    ioSeekSet ((filePos + 12 + h.propChunkSize) % 2 ^ 64)
    if h.isDstFormat then
      let (startPos, endPos) ← chunkWriteDstHeader h.soundDataSize
      chunkWriteFrte h.dstFrameCount h.dstFrameRate
      pure { h with soundDataStartPos := startPos, soundDataEndPos := endPos }
    else
      let (startPos, endPos) ← chunkWriteSndHeader h.soundDataSize
      pure { h with soundDataStartPos := startPos, soundDataEndPos := endPos }
  else pure h

/-- The second half of `dsdiff_finalize`: the head of the file is written again. The
offsets are those `dsdiff_create` uses, whatever the file looks like. -/
def rewriteHead (h : Handle) (endFilePos : Nat) : Io Handle := do
  ioSeekSet 0
  chunkWriteFrm8Header ((endFilePos + 2 ^ 64 - 12) % 2 ^ 64)
  chunkWriteFver h.formatVersion
  let filePos ← tell
  chunkWritePropHeader h.propChunkSize
  ioSeekSet h.channelChunkPos
  chunkWriteChnl h.channelCount h.channelIds
  ioSeekSet h.timecodeChunkPos
  let h := if h.hasTimecode then
    { h with startTimecode := timecodeNormalize h.startTimecode h.sampleRate } else h
  when h.hasTimecode (chunkWriteAbss h.startTimecode)
  rewriteSoundHeader { h with fileSizeAfterFinalize := endFilePos } filePos

/-- `dsdiff_finalize`. -/
def finalize (h : Handle) : Io Handle := do
  require (h.mode ≠ .closed) .notOpen
  if h.mode = .write ∨ h.mode = .modify then
    writeMetadata h
    let endFilePos ← tell
    let h ← rewriteHead h endFilePos
    ioSeekSet endFilePos
    pure h
  else pure h

/-- `dsdiff_io_close`: a file that may have been written to is cut off where it stands. -/
def ioClose (mode : FileMode) (io : ByteFile) : List UInt8 :=
  if mode = .write ∨ mode = .modify then io.truncate else io.content

end DsdNexus.Dsdiff
