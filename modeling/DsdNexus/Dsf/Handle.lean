import DsdNexus.Dsf.Chunks
import DsdNexus.Util.Reverse

/-! # DSF: the handle

`dsf.c`: creating a file and writing its audio block by block, opening one and reading its
audio back, replacing its metadata, and `dsf_finalize`, which patches the sizes into the
head.
-/

namespace DsdNexus.Dsf

open Program FileProgram

/-- `dsf_file_mode_t`. -/
inductive FileMode where
  | closed
  | read
  | write
  | modify
deriving DecidableEq

/-- `dsf_s`, without its file. Null metadata are the empty ones. -/
structure Handle where
  mode : FileMode
  info : FileInfo
  samplesWritten : Nat
  bytesWritten : Nat
  metadata : List UInt8
  /-- `channel_buffers[ch][i]`. -/
  channelBuffers : Nat → Nat → UInt8
  bytesBuffered : Nat
  /-- The first `read_buffer_valid` bytes of `read_buffer`. -/
  readBuffer : List UInt8
  readBufferPos : Nat

/-- `dsf_reset_file_state`. -/
def reset : Handle where
  mode := .closed
  info := FileInfo.zero
  samplesWritten := 0
  bytesWritten := 0
  metadata := []
  channelBuffers := fun _ _ => 0
  bytesBuffered := 0
  readBuffer := []
  readBufferPos := 0

/-- A handle with its file. -/
structure OpenHandle where
  handle : Handle
  io : ByteFile

/-- What is done with an open handle. -/
abbrev OnHandle := Program Error OpenHandle

def liftIo {α : Type} (m : Io α) : OnHandle α := zoom OpenHandle.io (fun io s => { s with io := io }) m

def update (f : Handle → Handle) : OnHandle Unit := modify fun s => { s with handle := f s.handle }

/-! ## Opening and creating -/

/-- The record with the size of the data, and with the samples these are where it is not
the size computed from the samples. -/
def settleInfo (dataSize : Nat) (info : FileInfo) : OnHandle FileInfo :=
  if dataSize = info.audioDataSize then pure info
  else if info.bitsPerSample = 1 then
    if info.channelCount = 0 then fail .invalidChannels
    else
      let bytesPerChannel := dataSize / info.channelCount.toNat
      let blocksPerChannel := bytesPerChannel / blockSizePerChannel
      match uint64Mul blocksPerChannel blockSizePerChannel with
      | none => fail .invalidChunk
      | some samplesPerBlock =>
        match uint64Mul samplesPerBlock 8 with
        | none => fail .invalidChunk
        | some samples => pure { info with audioDataSize := dataSize, sampleCount := samples }
  else pure { info with audioDataSize := dataSize }

/-- The metadata, where there are any to be read. That they cannot be read is no error. -/
def readMetadataOf (metadataOffset : Nat) : OnHandle Unit := fun s =>
  if 0 < metadataOffset ∧ s.handle.mode ≠ .write then
    match chunkReadMetadata metadataOffset s.io with
    | (.ok metadata, io) => (.ok (), ⟨{ s.handle with metadata := metadata }, io⟩)
    | (.error _, io) => (.ok (), ⟨{ s.handle with metadata := [] }, io⟩)
  else (.ok (), s)

/-- `dsf_read_file_structure`. What the DSD chunk says goes into the record, and
`dsf_chunk_read_fmt` clears it again. -/
def readFileStructure : OnHandle Unit := do
  let (fileSize, metadataOffset) ← liftIo chunkReadDsdHeader
  update fun h => { h with
    info := { h.info with fileSize := fileSize, metadataOffset := metadataOffset } }
  let info ← liftIo chunkReadFmt
  update fun h => { h with info := info }
  let (dataSize, dataOffset) ← liftIo chunkReadDataHeader
  let info ← settleInfo dataSize { info with audioDataOffset := dataOffset }
  update fun h => { h with info := info }
  readMetadataOf metadataOffset

/-- `dsf_open`, on the bytes of the file. -/
def dsfOpen (content : List UInt8) : Except Error OpenHandle :=
  match readFileStructure ⟨reset, ⟨content, 0⟩⟩ with
  | (.ok (), s) => .ok { s with handle := { s.handle with mode := .read } }
  | (.error e, _) => .error e

/-- `dsf_io_close`: a file that may have been written to is cut off where it stands. -/
def ioClose (mode : FileMode) (io : ByteFile) : List UInt8 :=
  if mode = .write ∨ mode = .modify then io.truncate else io.content

/-- `dsf_open_modify`: an open handle, or an error and the bytes of the file once it was
closed again. -/
def dsfOpenModify (content : List UInt8) : OpenHandle ⊕ Error × List UInt8 :=
  match readFileStructure ⟨reset, ⟨content, 0⟩⟩ with
  | (.ok (), s) => .inl { s with handle := { s.handle with mode := .modify } }
  | (.error e, s) => .inr (e, ioClose .modify s.io)

/-- `dsf_get_file_info`. -/
def getFileInfo : OnHandle FileInfo := do
  let s ← get
  require (s.handle.mode ≠ .closed) .notOpen
  pure s.handle.info

/-- `dsf_write_file_structure`. -/
def writeFileStructure : OnHandle Unit := do
  liftIo (chunkWriteDsdHeader 0 0)
  let s ← get
  liftIo (chunkWriteFmt s.handle.info)
  let dataOffset ← liftIo (chunkWriteDataHeader 0)
  update fun h => { h with info := { h.info with audioDataOffset := dataOffset } }

/-- The record `dsf_create` fills in. -/
def createInfo (sampleRate channelType channelCount bitsPerSample : UInt32) : FileInfo :=
  { FileInfo.zero with
    formatVersion := formatVersion
    formatId := formatDsdRaw
    channelType := channelType
    channelCount := channelCount
    samplingFrequency := sampleRate
    bitsPerSample := bitsPerSample
    sampleCount := 0
    blockSizePerChannel := UInt32.ofNat blockSizePerChannel }

/-- `dsf_create`, of an empty file. -/
def dsfCreate (sampleRate channelType channelCount bitsPerSample : UInt32) :
    Except Error OpenHandle :=
  if isValidSampleRate sampleRate = false then .error .invalidSampleRate
  else if isValidChannelType channelType = false then .error .invalidChannels
  else if isValidChannelCount channelCount = false then .error .invalidChannels
  else if isValidBitsPerSample bitsPerSample = false then .error .invalidBitDepth
  else
    let info := createInfo sampleRate channelType channelCount bitsPerSample
    match writeFileStructure ⟨{ reset with info := info }, ⟨[], 0⟩⟩ with
    | (.ok (), s) =>
      .ok { s with handle := { s.handle with mode := .write, samplesWritten := 0, bytesWritten := 0 } }
    | (.error e, _) => .error e

/-! ## Writing the audio -/

/-- One block of a group: what the channel has buffered, and zeroes behind it where the
block is padded. -/
def channelBlock (h : Handle) (bytesToWrite blockBytes ch : Nat) : List UInt8 :=
  (List.range blockBytes).map fun i => if i < bytesToWrite then h.channelBuffers ch i else 0

/-- `dsf_write_block_group`. -/
def writeBlockGroup (bytesToWrite : Nat) (padToBlock : Bool) : OnHandle Unit := do
  let s ← get
  let blockBytes := if padToBlock then blockSizePerChannel else bytesToWrite
  let blocks := (List.range s.handle.info.channelCount.toNat).map
    (channelBlock s.handle bytesToWrite blockBytes)
  liftIo (ioWriteBytes blocks.flatten)
  update fun h => { h with
    bytesWritten := (h.bytesWritten + blockBytes * h.info.channelCount.toNat) % 2 ^ 64 }

/-- One byte for each channel goes into the buffers, its bits reversed. -/
def Handle.storeSamples (h : Handle) (input : List UInt8) : Handle :=
  { h with
    channelBuffers := fun ch i =>
      if i = h.bytesBuffered ∧ ch < h.info.channelCount.toNat then ffReverse (input.getD ch 0)
      else h.channelBuffers ch i
    bytesBuffered := h.bytesBuffered + 1 }

/-- The loop of `dsf_write_audio_data`, with the bytes of the block groups it wrote. -/
def writeAudioLoop : Nat → List UInt8 → OnHandle Nat
  | 0, _ => pure 0
  | n + 1, input => do
    let s ← get
    let channelCount := s.handle.info.channelCount.toNat
    require (s.handle.bytesBuffered < blockSizePerChannel) .undefined
    update fun h => h.storeSamples input
    let s ← get
    if s.handle.bytesBuffered = blockSizePerChannel then
      writeBlockGroup blockSizePerChannel false
      update fun h => { h with bytesBuffered := 0 }
      let written ← writeAudioLoop n (input.drop channelCount)
      pure (blockSizePerChannel * channelCount + written)
    else
      writeAudioLoop n (input.drop channelCount)

/-- `dsf_write_audio_data`: how many bytes went to the file. -/
def writeAudioData (buffer : List UInt8) : OnHandle Nat := do
  let s ← get
  require (s.handle.mode = .write) .invalidMode
  let channelCount := s.handle.info.channelCount.toNat
  require (buffer.length % channelCount = 0) .invalidArg
  let bytesPerChannel := buffer.length / channelCount
  let written ← writeAudioLoop bytesPerChannel buffer
  update fun h =>
    let samples := if h.info.bitsPerSample = 1 then bytesPerChannel * 8 else bytesPerChannel
    let samplesWritten := (h.samplesWritten + samples) % 2 ^ 64
    { h with
      samplesWritten := samplesWritten
      info := { h.info with
        sampleCount := samplesWritten
        audioDataSize := h.bytesWritten
        bitRate := calculateBitRate h.info.channelCount h.info.samplingFrequency
          h.info.bitsPerSample } }
  pure written

/-- `dsf_flush_audio_data`. -/
def flushAudioData : OnHandle Unit := do
  let s ← get
  require (s.handle.mode = .write) .invalidMode
  when (0 < s.handle.bytesBuffered) (do
    writeBlockGroup s.handle.bytesBuffered true
    update fun h => { h with
      info := { h.info with audioDataSize := h.bytesWritten }, bytesBuffered := 0 })

/-! ## Reading the audio -/

/-- `dsf_convert_block_to_byte_interleaved`. -/
def convertBlockToByteInterleaved (dsfData : List UInt8) (channelCount : Nat) : List UInt8 :=
  (List.range (blockSizePerChannel * channelCount)).map fun j =>
    ffReverse (dsfData.getD (j % channelCount * blockSizePerChannel + j / channelCount) 0)

/-- `dsf_read_and_buffer_block_group`. -/
def readAndBufferBlockGroup : OnHandle Unit := do
  let s ← get
  let channelCount := s.handle.info.channelCount.toNat
  let data ← liftIo (ioReadBytes (blockSizePerChannel * channelCount))
  require (data ≠ []) .endOfData
  update fun h => { h with
    readBuffer := convertBlockToByteInterleaved data channelCount, readBufferPos := 0 }

/-- What comes of a read: the bytes in the caller's buffer, and the error that ended it. -/
abbrev Delivered := List UInt8 × Option Error

/-- What the read buffer still holds is served, at most `want` bytes of it. -/
def serve (s : OpenHandle) (want : Nat) : List UInt8 × OpenHandle :=
  let bytes := (s.handle.readBuffer.drop s.handle.readBufferPos).take want
  (bytes, { s with
    handle := { s.handle with readBufferPos := s.handle.readBufferPos + bytes.length } })

/-- The loop of `dsf_read_audio_data`, for `want` bytes more. Each turn that goes on serves
a byte, so that as many turns as there are bytes wanted are enough. -/
def readAudioLoop : Nat → Nat → OpenHandle → Delivered × OpenHandle
  | 0, _, s => (([], none), s)
  | fuel + 1, want, s =>
    if want = 0 then (([], none), s)
    else if s.handle.readBufferPos < s.handle.readBuffer.length then
      let (bytes, s) := serve s want
      let ((more, error), s) := readAudioLoop fuel (want - bytes.length) s
      ((bytes ++ more, error), s)
    else
      match readAndBufferBlockGroup s with
      | (.ok (), s) =>
        let (bytes, s) := serve s want
        let ((more, error), s) := readAudioLoop fuel (want - bytes.length) s
        ((bytes ++ more, error), s)
      | (.error .endOfData, s) => (([], none), s)
      | (.error e, s) => (([], some e), s)

/-- `dsf_read_audio_data`. -/
def readAudioData (numBytes : Nat) : OnHandle Delivered := do
  let s ← get
  require (s.handle.mode = .read ∨ s.handle.mode = .modify) .invalidMode
  fun s => (.ok (readAudioLoop numBytes numBytes s).1, (readAudioLoop numBytes numBytes s).2)

/-- `dsf_seek_dir_t`. -/
inductive SeekDir where
  | set
  | cur
  | «end»
deriving DecidableEq

/-- A seek, after which the read buffer is no longer valid. -/
def seekInvalidating (m : Io Unit) : OnHandle Unit := do
  liftIo m
  update fun h => { h with readBuffer := [], readBufferPos := 0 }

/-- `dsf_seek_to_audio_start`. -/
def seekToAudioStart : OnHandle Unit := do
  let s ← get
  require (s.handle.mode = .read ∨ s.handle.mode = .modify) .invalidMode
  seekInvalidating (ioSeekSet (int64 s.handle.info.audioDataOffset))

/-- `dsf_seek_audio_data`; the offsets are added as unsigned words. -/
def seekAudioData (byteOffset : Int) (origin : SeekDir) : OnHandle Unit := do
  let s ← get
  require (s.handle.mode = .read ∨ s.handle.mode = .modify) .invalidMode
  let info := s.handle.info
  match origin with
  | .set => seekInvalidating (ioSeekSet (int64 (uint64 (info.audioDataOffset + byteOffset))))
  | .cur => seekInvalidating (ioSeekCur byteOffset)
  | .end =>
    seekInvalidating
      (ioSeekSet (int64 (uint64 (info.audioDataOffset + info.audioDataSize + byteOffset))))

/-- `dsf_get_audio_position`. -/
def getAudioPosition : OnHandle Nat := do
  let s ← get
  require (s.handle.mode = .read ∨ s.handle.mode = .modify) .invalidMode
  let filePos ← liftIo tell
  pure (filePos - s.handle.info.audioDataOffset)

/-! ## Metadata -/

/-- `dsf_read_metadata`. -/
def readMetadata : OnHandle (List UInt8) := do
  let s ← get
  require (s.handle.mode ≠ .closed) .notOpen
  require (s.handle.metadata ≠ []) .noMetadata
  liftIo (saMalloc s.handle.metadata.length)
  pure s.handle.metadata

/-- `dsf_write_metadata`. -/
def writeMetadata (buffer : List UInt8) : OnHandle Unit := do
  let s ← get
  require (buffer ≠ []) .invalidArg
  require (s.handle.mode = .write ∨ s.handle.mode = .modify) .invalidMode
  require (buffer.length ≤ maxReasonableMetadataSize) .invalidMetadata
  liftIo (saMalloc buffer.length)
  update fun h => { h with metadata := buffer }

/-! ## Finalizing and closing -/

/-- The metadata, where there are any, and where they start; 0 for none. -/
def writeMetadataOf (metadata : List UInt8) : Io Nat :=
  if metadata ≠ [] then chunkWriteMetadata metadata else pure 0

/-- `dsf_finalize`. Where the file stands counts as the end of the audio. -/
def finalize : OnHandle Unit := do
  let s ← get
  require (s.handle.mode = .write ∨ s.handle.mode = .modify) .invalidMode
  when (s.handle.mode = .write ∧ 0 < s.handle.bytesBuffered) flushAudioData
  let currentPos ← liftIo tell
  let dataSize := uint64 (currentPos - (dsdChunkSize + fmtChunkSize + dataChunkHeaderSize : Nat))
  liftIo (chunkUpdateDataSize dataSize)
  update fun h => { h with info := { h.info with audioDataSize := dataSize } }
  let s ← get
  liftIo (chunkUpdateSampleCount s.handle.info.sampleCount)
  let metadataOffset ← liftIo (writeMetadataOf s.handle.metadata)
  let fileSize ← liftIo tell
  liftIo (chunkUpdateFileSize fileSize)
  liftIo (when (0 < metadataOffset) (chunkUpdateMetadataOffset metadataOffset))
  update fun h => { h with
    info := { h.info with fileSize := fileSize, metadataOffset := metadataOffset } }

/-- `dsf_close`: the bytes of the file. -/
def dsfClose (s : OpenHandle) : List UInt8 := ioClose s.handle.mode s.io

end DsdNexus.Dsf
