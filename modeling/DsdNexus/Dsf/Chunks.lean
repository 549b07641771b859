import DsdNexus.Lib.Endian
import DsdNexus.Lib.FileProgram
import DsdNexus.Util.Words

/-! # DSF: reading and writing chunks

`dsf_io.c` and `dsf_chunks.c`. A file is the DSD chunk, the fmt chunk and the data chunk,
each at its fixed place, and the metadata behind them. A read that comes back short fails,
with the position behind what there was.
-/

namespace DsdNexus.Dsf

open Program FileProgram Endian

/-- `dsf_error_t`, and what writes past a buffer. -/
inductive Error where
  | alreadyOpen
  | notOpen
  | invalidFile
  | invalidChunk
  | invalidDsf
  | invalidVersion
  | unsupportedCompression
  | read
  | write
  | endOfData
  | generic
  | invalidChannels
  | invalidSampleRate
  | invalidBitDepth
  | invalidBlockSize
  | invalidArg
  | outOfMemory
  | invalidMode
  | noMetadata
  | invalidMetadata
  /-- The code writes past the end of a buffer here. -/
  | undefined
deriving DecidableEq

/-- What is done with the file of a handle, `dsf_chunk_t`. -/
abbrev Io := Program Error ByteFile

/-! ## Constants -/

def dsdChunkId : List UInt8 := makeMarker 'D' 'S' 'D' ' '
def fmtChunkId : List UInt8 := makeMarker 'f' 'm' 't' ' '
def dataChunkId : List UInt8 := makeMarker 'd' 'a' 't' 'a'

/-- `DSF_FORMAT_VERSION`. -/
def formatVersion : UInt32 := 1

/-- `DSF_FORMAT_DSD_RAW`. -/
def formatDsdRaw : UInt32 := 0

/-- `DSF_MAX_CHANNELS`. -/
def maxChannels : UInt32 := 7

/-- `DSF_BLOCK_SIZE_PER_CHANNEL`. -/
def blockSizePerChannel : Nat := 4096

def dsdChunkSize : Nat := 28
def fmtChunkSize : Nat := 52
def dataChunkHeaderSize : Nat := 12

/-- `DSF_MAX_REASONABLE_CHUNK_SIZE`. -/
def maxReasonableChunkSize : Nat := 10 * 1024 * 1024 * 1024

/-- `DSF_MAX_REASONABLE_METADATA_SIZE`. -/
def maxReasonableMetadataSize : Nat := 100 * 1024 * 1024

/-! ## Checked arithmetic and the checks of the format -/

/-- `dsf_uint64_add_overflow`: nothing where the sum overflows. -/
def uint64Add (a b : Nat) : Option Nat := if 2 ^ 64 - 1 - b < a then none else some (a + b)

/-- `dsf_uint64_mul_overflow`. -/
def uint64Mul (a b : Nat) : Option Nat :=
  if a ≠ 0 ∧ (2 ^ 64 - 1) / a < b then none else some (a * b)

/-- `dsf_uint64_sub_underflow`. -/
def uint64Sub (a b : Nat) : Option Nat := if a < b then none else some (a - b)

/-- `dsf_is_valid_sample_rate`. -/
def isValidSampleRate (rate : UInt32) : Bool :=
  rate = 2822400 || rate = 5644800 || rate = 11289600 || rate = 22579200

/-- `dsf_is_valid_channel_type`. -/
def isValidChannelType (type : UInt32) : Bool := 1 ≤ type && type ≤ 7

/-- `dsf_is_valid_bits_per_sample`. -/
def isValidBitsPerSample (bits : UInt32) : Bool := bits = 1 || bits = 8

/-- A channel count the format has. -/
def isValidChannelCount (count : UInt32) : Bool := 1 ≤ count && count ≤ maxChannels

/-- `dsf_calculate_audio_data_size`; 0 where a step overflows. -/
def calculateAudioDataSize (channelCount : UInt32) (sampleCount : Nat)
    (bitsPerSample : UInt32) : Nat :=
  if bitsPerSample = 1 then
    if 2 ^ 64 - 1 - 7 < sampleCount then 0
    else
      let bytesPerChannel := (sampleCount + 8 - 1) / 8
      if 2 ^ 64 - 1 - blockSizePerChannel + 1 < bytesPerChannel then 0
      else
        let blocks := (bytesPerChannel + blockSizePerChannel - 1) / blockSizePerChannel
        match uint64Mul blocks blockSizePerChannel with
        | none => 0
        | some blockBytes => (uint64Mul blockBytes channelCount.toNat).getD 0
  else (uint64Mul sampleCount channelCount.toNat).getD 0

/-- `dsf_calculate_bit_rate`. -/
def calculateBitRate (channelCount sampleRate bitsPerSample : UInt32) : UInt32 :=
  channelCount * sampleRate * bitsPerSample

/-- `dsf_file_info_t`. -/
structure FileInfo where
  fileSize : Nat
  metadataOffset : Nat
  formatVersion : UInt32
  formatId : UInt32
  channelType : UInt32
  channelCount : UInt32
  samplingFrequency : UInt32
  bitsPerSample : UInt32
  sampleCount : Nat
  blockSizePerChannel : UInt32
  audioDataSize : Nat
  audioDataOffset : Nat
  bitRate : UInt32
deriving DecidableEq

/-- `memset` of the record. -/
def FileInfo.zero : FileInfo where
  fileSize := 0
  metadataOffset := 0
  formatVersion := 0
  formatId := 0
  channelType := 0
  channelCount := 0
  samplingFrequency := 0
  bitsPerSample := 0
  sampleCount := 0
  blockSizePerChannel := 0
  audioDataSize := 0
  audioDataOffset := 0
  bitRate := 0

/-! ## Numbers, bytes and places -/

def ioReadBytes (n : Nat) : Io (List UInt8) := readExact .read n

def ioWriteBytes (bytes : List UInt8) : Io Unit := emit .write bytes

/-- A chunk id is read as a number and compared with `MAKE_MARKER`. -/
def ioReadChunkId : Io (List UInt8) := ioReadBytes 4

def ioWriteChunkId (code : List UInt8) : Io Unit := ioWriteBytes code

def ioReadUint32Le : Io UInt32 := do
  let bytes ← ioReadBytes 4
  pure (UInt32.ofNat (ofLe bytes))

def ioReadUint64Le : Io Nat := do
  let bytes ← ioReadBytes 8
  pure (ofLe bytes)

def ioWriteUint32Le (data : UInt32) : Io Unit := ioWriteBytes (toLe 4 data.toNat)

def ioWriteUint64Le (data : Nat) : Io Unit := ioWriteBytes (toLe 8 data)

/-- `dsf_io_seek` from the start of the file. -/
def ioSeekSet (offset : Int) : Io Unit := seek .generic offset 0

/-- `dsf_io_seek` from where the file stands. -/
def ioSeekCur (offset : Int) : Io Unit := seekBy .generic offset

def ioGetFileSize : Io Nat := fun f => (.ok f.content.length, f)

/-- `sa_malloc`. -/
def saMalloc (size : Nat) : Io Unit := require (size ≤ maxAllocSize) .outOfMemory

/-! ## The DSD chunk -/

/-- `dsf_chunk_read_dsd_header`: the size of the file and where its metadata start. -/
def chunkReadDsdHeader : Io (Nat × Nat) := do
  let chunkId ← ioReadChunkId
  require (chunkId = dsdChunkId) .invalidDsf
  let chunkSize ← ioReadUint64Le
  require (chunkSize = dsdChunkSize) .invalidChunk
  let fileSize ← ioReadUint64Le
  let metadataOffset ← ioReadUint64Le
  pure (fileSize, metadataOffset)

def chunkWriteDsdHeader (fileSize metadataOffset : Nat) : Io Unit := do
  ioWriteChunkId dsdChunkId
  ioWriteUint64Le dsdChunkSize
  ioWriteUint64Le fileSize
  ioWriteUint64Le metadataOffset

/-- What fails goes back to the saved position first. -/
def restoring (savedPos : Nat) (m : Io Unit) : Io Unit := fun f =>
  match m f with
  | (.ok (), f) => (.ok (), f)
  | (.error e, f) => (.error e, (ioSeekSet savedPos f).2)

/-- A 64-bit field at its place is written anew; the position stays. -/
def chunkUpdate (offset value : Nat) : Io Unit := do
  let savedPos ← tell
  ioSeekSet offset
  restoring savedPos (ioWriteUint64Le value)
  ioSeekSet savedPos

def chunkUpdateFileSize (fileSize : Nat) : Io Unit := chunkUpdate 12 fileSize

def chunkUpdateMetadataOffset (metadataOffset : Nat) : Io Unit := chunkUpdate 20 metadataOffset

def chunkUpdateSampleCount (sampleCount : Nat) : Io Unit :=
  chunkUpdate (dsdChunkSize + 36) sampleCount

/-- `dsf_chunk_update_data_size`: the size of the chunk is that of its head and the data. -/
def chunkUpdateDataSize (dataSize : Nat) : Io Unit := do
  let savedPos ← tell
  ioSeekSet (dsdChunkSize + fmtChunkSize + 4 : Nat)
  match uint64Add dataChunkHeaderSize dataSize with
  | none => restoring savedPos (fail .invalidDsf)
  | some chunkSize => do
    restoring savedPos (ioWriteUint64Le chunkSize)
    ioSeekSet savedPos

/-! ## The fmt chunk -/

/-- `dsf_chunk_read_fmt`: a record that starts as zeroes, the sizes of the DSD chunk with
it. -/
def chunkReadFmt : Io FileInfo := do
  let chunkId ← ioReadChunkId
  require (chunkId = fmtChunkId) .invalidChunk
  let chunkSize ← ioReadUint64Le
  require (chunkSize = fmtChunkSize) .invalidChunk
  let version ← ioReadUint32Le
  require (version = formatVersion) .invalidVersion
  let formatId ← ioReadUint32Le
  require (formatId = formatDsdRaw) .unsupportedCompression
  let channelType ← ioReadUint32Le
  require (isValidChannelType channelType) .invalidChannels
  let channelCount ← ioReadUint32Le
  require (isValidChannelCount channelCount) .invalidChannels
  let samplingFrequency ← ioReadUint32Le
  require (isValidSampleRate samplingFrequency) .invalidSampleRate
  let bitsPerSample ← ioReadUint32Le
  require (isValidBitsPerSample bitsPerSample) .invalidBitDepth
  let sampleCount ← ioReadUint64Le
  let blockSize ← ioReadUint32Le
  require (blockSize.toNat = blockSizePerChannel) .invalidBlockSize
  let _ ← ioReadUint32Le
  pure { FileInfo.zero with
    formatVersion := version
    formatId := formatId
    channelType := channelType
    channelCount := channelCount
    samplingFrequency := samplingFrequency
    bitsPerSample := bitsPerSample
    sampleCount := sampleCount
    blockSizePerChannel := blockSize
    audioDataSize := calculateAudioDataSize channelCount sampleCount bitsPerSample
    bitRate := calculateBitRate channelCount samplingFrequency bitsPerSample }

def chunkWriteFmt (info : FileInfo) : Io Unit := do
  require (info.formatVersion = formatVersion) .invalidVersion
  require (info.formatId = formatDsdRaw) .unsupportedCompression
  require (isValidChannelType info.channelType) .invalidChannels
  require (isValidChannelCount info.channelCount) .invalidChannels
  require (isValidSampleRate info.samplingFrequency) .invalidSampleRate
  require (isValidBitsPerSample info.bitsPerSample) .invalidBitDepth
  require (info.blockSizePerChannel.toNat = blockSizePerChannel) .invalidBlockSize
  ioWriteChunkId fmtChunkId
  ioWriteUint64Le fmtChunkSize
  ioWriteUint32Le info.formatVersion
  ioWriteUint32Le info.formatId
  ioWriteUint32Le info.channelType
  ioWriteUint32Le info.channelCount
  ioWriteUint32Le info.samplingFrequency
  ioWriteUint32Le info.bitsPerSample
  ioWriteUint64Le info.sampleCount
  ioWriteUint32Le info.blockSizePerChannel
  ioWriteUint32Le 0

/-! ## The data chunk -/

/-- `dsf_chunk_read_data_header`: the size of the data and where they start. -/
def chunkReadDataHeader : Io (Nat × Nat) := do
  let chunkId ← ioReadChunkId
  require (chunkId = dataChunkId) .invalidChunk
  let chunkSize ← ioReadUint64Le
  require (dataChunkHeaderSize ≤ chunkSize) .invalidChunk
  require (chunkSize ≤ maxReasonableChunkSize) .invalidChunk
  let dataOffset ← tell
  pure (chunkSize - dataChunkHeaderSize, dataOffset)

/-- `dsf_chunk_write_data_header`: where the data start. -/
def chunkWriteDataHeader (dataSize : Nat) : Io Nat :=
  match uint64Add dataChunkHeaderSize dataSize with
  | none => fail .invalidChunk
  | some chunkSize => do
    require (chunkSize ≤ maxReasonableChunkSize) .invalidChunk
    ioWriteChunkId dataChunkId
    ioWriteUint64Le chunkSize
    tell

/-! ## Metadata -/

/-- `dsf_chunk_read_metadata`: what stands from the offset to the end of the file. -/
def chunkReadMetadata (metadataOffset : Nat) : Io (List UInt8) := do
  require (metadataOffset ≠ 0) .noMetadata
  let fileSize ← ioGetFileSize
  require (metadataOffset < fileSize) .invalidMetadata
  let size := fileSize - metadataOffset
  require (size ≤ maxReasonableMetadataSize) .invalidMetadata
  saMalloc size
  ioSeekSet (int64 metadataOffset)
  ioReadBytes size

/-- `dsf_chunk_write_metadata`: where they start. -/
def chunkWriteMetadata (metadata : List UInt8) : Io Nat := do
  require (metadata ≠ []) .invalidArg
  require (metadata.length ≤ maxReasonableMetadataSize) .invalidMetadata
  let metadataOffset ← tell
  ioWriteBytes metadata
  pure metadataOffset

end DsdNexus.Dsf
