import DsdNexus.Dsdiff.Types

/-! # DSDIFF: reading and writing chunks

`dsdiff_io.c` and `dsdiff_chunks.c`. A read that comes back short fails, with the
position behind what there was.
-/

namespace DsdNexus.Dsdiff

open Program FileProgram Endian

/-- What is done with the file of a handle, `dsdiff_chunk_t`. -/
abbrev Io := Program Error ByteFile

/-! ## Numbers, strings and places -/

def ioReadBytes (n : Nat) : Io (List UInt8) := readExact .readFailed n

def ioWriteBytes (bytes : List UInt8) : Io Unit := emit .writeFailed bytes

def ioReadChunkId : Io (List UInt8) := ioReadBytes 4

def ioWriteChunkId (code : List UInt8) : Io Unit := ioWriteBytes code

def ioReadUint8 : Io UInt8 := do
  let bytes ← ioReadBytes 1
  pure (UInt8.ofNat (ofBe bytes))

def ioReadUint16Be : Io UInt16 := do
  let bytes ← ioReadBytes 2
  pure (UInt16.ofNat (ofBe bytes))

def ioReadUint32Be : Io UInt32 := do
  let bytes ← ioReadBytes 4
  pure (UInt32.ofNat (ofBe bytes))

def ioReadUint64Be : Io Nat := do
  let bytes ← ioReadBytes 8
  pure (ofBe bytes)

def ioWriteUint8 (data : UInt8) : Io Unit := ioWriteBytes (toBe 1 data.toNat)

def ioWriteUint16Be (data : UInt16) : Io Unit := ioWriteBytes (toBe 2 data.toNat)

def ioWriteUint32Be (data : UInt32) : Io Unit := ioWriteBytes (toBe 4 data.toNat)

def ioWriteUint64Be (data : Nat) : Io Unit := ioWriteBytes (toBe 8 data)

/-- `dsdiff_io_seek` from the start of the file; the offset is taken as a signed one. -/
def ioSeekSet (offset : Nat) : Io Unit := seek .seekFailed (int64 offset) 0

/-- `dsdiff_io_seek` from where the file stands. -/
def ioSeekCur (offset : Nat) : Io Unit := seekBy .seekFailed (int64 offset)

def ioReadPadByte : Io Unit := do
  let _ ← ioReadUint8
  pure ()

def ioWritePadByte : Io Unit := ioWriteUint8 0

/-- The pad byte behind so many bytes, where there is one. -/
def readPadOf (size : Nat) : Io Unit := if size % 2 ≠ 0 then ioReadPadByte else pure ()

def writePadOf (size : Nat) : Io Unit := if size % 2 ≠ 0 then ioWritePadByte else pure ()

/-- `dsdiff_io_read_pstring`, with the limit `length` holds when it is called. -/
def ioReadPstring (length bufferSize : Nat) : Io (List UInt8) := do
  let strLen ← ioReadUint8
  require (strLen.toNat ≤ length) .invalidArg
  require (strLen.toNat < bufferSize) .invalidArg
  let string ← ioReadBytes strLen.toNat
  readPadOf (strLen.toNat + 1)
  pure string

/-- `dsdiff_io_write_pstring`; at most 255 characters. -/
def ioWritePstring (string : List UInt8) : Io Unit := do
  let strLen := min string.length 255
  ioWriteUint8 (UInt8.ofNat strLen)
  ioWriteBytes (string.take strLen)
  writePadOf (strLen + 1)

/-- `sa_malloc`. -/
def saMalloc (size : Nat) : Io Unit := require (size ≤ maxAllocSize) .outOfMemory

/-- A buffer for so many characters and the terminator, and what is read into it. The size
is computed in 32 bits: for `UINT32_MAX` characters nothing is allocated. -/
def readText (numChars : UInt32) : Io (List UInt8) := do
  require (numChars + 1 ≠ 0) .undefined
  saMalloc (numChars + 1).toNat
  ioReadBytes numChars.toNat

/-- The same, where an empty text is not read at all. -/
def readTextOf (numChars : UInt32) : Io (List UInt8) :=
  if 0 < numChars then readText numChars else pure []

/-! ## Any chunk -/

def chunkReadHeader : Io ChunkType := do
  let fourcc ← ioReadChunkId
  pure (ChunkType.ofFourcc fourcc)

/-- `dsdiff_chunk_skip`: the size is sought over as a signed number. -/
def chunkSkip : Io Unit := do
  let chunkSize ← ioReadUint64Be
  ioSeekCur chunkSize
  readPadOf chunkSize

/-- `dsdiff_chunk_read_contents`: the bytes of another place of the file. -/
def chunkReadContents (filePos byteCount : Nat) : Io (List UInt8) := do
  let savedPos ← tell
  ioSeekSet filePos
  let data ← fun f =>
    match ioReadBytes byteCount f with
    | (.ok data, f) => (.ok data, f)
    | (.error e, f) => (.error e, (ioSeekSet savedPos f).2)
  ioSeekSet savedPos
  pure data

/-- The id and size every chunk starts with. -/
def writeChunkHead (type : ChunkType) (chunkSize : Nat) : Io Unit := do
  ioWriteChunkId type.fourcc
  ioWriteUint64Be chunkSize

/-! ## FRM8, FVER and PROP -/

def chunkReadFrm8Header : Io (Nat × AudioType) := do
  let chunkSize ← ioReadUint64Be
  let chunkType ← chunkReadHeader
  match chunkType with
  | .dst => pure (chunkSize, .dst)
  | .dsd => pure (chunkSize, .dsd)
  | _ => fail .invalidFile

/-- `dsdiff_chunk_write_frm8_header`: the form type is `DSD ` for either kind of audio. -/
def chunkWriteFrm8Header (chunkSize : Nat) : Io Unit := do
  writeChunkHead .frm8 chunkSize
  ioWriteChunkId ChunkType.dsd.fourcc

def chunkReadFver : Io UInt32 := do
  let chunkSize ← ioReadUint64Be
  require (chunkSize = 4) .invalidChunk
  ioReadUint32Be

def chunkWriteFver (version : UInt32) : Io Unit := do
  writeChunkHead .fver 4
  ioWriteUint32Be version

def chunkReadPropHeader : Io Nat := do
  let chunkSize ← ioReadUint64Be
  let propType ← ioReadChunkId
  require (propType = ChunkType.snd.fourcc) .invalidFile
  pure chunkSize

def chunkWritePropHeader (chunkSize : Nat) : Io Unit := do
  writeChunkHead .prop chunkSize
  ioWriteChunkId ChunkType.snd.fourcc

/-! ## The chunks of PROP -/

def chunkReadFs : Io UInt32 := do
  let chunkSize ← ioReadUint64Be
  require (chunkSize = 4) .invalidChunk
  ioReadUint32Be

def chunkWriteFs (sampleRate : UInt32) : Io Unit := do
  writeChunkHead .fs 4
  ioWriteUint32Be sampleRate

/-- The loop of `dsdiff_chunk_read_chnl`. -/
def readChannelIds : Nat → Io (List ChannelId)
  | 0 => pure []
  | n + 1 => do
    let code ← ioReadChunkId
    let ids ← readChannelIds n
    pure (channelOfCode code :: ids)

def chunkReadChnl : Io (UInt16 × List ChannelId) := do
  let chunkSize ← ioReadUint64Be
  let numCh ← ioReadUint16Be
  require (0 < numCh ∧ numCh ≤ 1000 ∧ chunkSize = 2 + 4 * numCh.toNat) .invalidChunk
  let chIds ← readChannelIds numCh.toNat
  pure (numCh, chIds)

/-- The loop of `dsdiff_chunk_write_chnl`. -/
def writeChannelIds : List ChannelId → Io Unit
  | [] => pure ()
  | id :: ids => do
    match channelCode id with
    | some code => ioWriteChunkId code
    | none => fail .invalidArg
    writeChannelIds ids

def chunkWriteChnl (channelCount : UInt16) (channelIds : Option (List ChannelId)) : Io Unit :=
  match channelIds with
  | none => fail .invalidArg
  | some ids => do
    writeChunkHead .chnl (2 + channelCount.toNat * 4)
    ioWriteUint16Be channelCount
    writeChannelIds (ids.take channelCount.toNat)

/-- `dsdiff_chunk_read_cmpr`; the name is read and dropped. Its limit `name_len` is not
set before the call, so it is what the stack holds. -/
def chunkReadCmpr (nameLen nameBufferSize : Nat) : Io AudioType := do
  let _ ← ioReadUint64Be
  let fourcc ← ioReadChunkId
  let compressionType : AudioType :=
    if fourcc = ChunkType.dsd.fourcc then .dsd
    else if fourcc = ChunkType.dst.fourcc then .dst
    else .unknown
  require (compressionType ≠ .unknown) .invalidChunk
  let _ ← ioReadPstring nameLen nameBufferSize
  pure compressionType

def chunkWriteCmpr (compressionType : AudioType) (compressionName : List UInt8) : Io Unit := do
  let strLen := compressionName.length
  writeChunkHead .cmpr (4 + 1 + strLen + if strLen % 2 = 0 then 1 else 0)
  ioWriteChunkId (if compressionType = .dst then ChunkType.dst.fourcc else ChunkType.dsd.fourcc)
  ioWritePstring compressionName

def chunkReadAbss : Io Timecode := do
  let chunkSize ← ioReadUint64Be
  require (chunkSize = 8) .invalidChunk
  let hours ← ioReadUint16Be
  let minutes ← ioReadUint8
  let seconds ← ioReadUint8
  let samples ← ioReadUint32Be
  pure ⟨hours, minutes, seconds, samples⟩

def chunkWriteAbss (timecode : Timecode) : Io Unit := do
  writeChunkHead .abss 8
  ioWriteUint16Be timecode.hours
  ioWriteUint8 timecode.minutes
  ioWriteUint8 timecode.seconds
  ioWriteUint32Be timecode.samples

def chunkReadLsco : Io UInt16 := do
  let chunkSize ← ioReadUint64Be
  require (chunkSize = 2) .invalidChunk
  ioReadUint16Be

def chunkWriteLsco (config : UInt16) : Io Unit := do
  writeChunkHead .lsco 2
  ioWriteUint16Be config

/-! ## Sound data -/

/-- `dsdiff_chunk_write_snd_header`: where the data start and stop. -/
def chunkWriteSndHeader (soundDataSize : Nat) : Io (Nat × Nat) := do
  writeChunkHead .dsd soundDataSize
  let dataStartPos ← tell
  pure (dataStartPos, (dataStartPos + soundDataSize) % 2 ^ 64)

def chunkWriteDstHeader (chunkDataSize : Nat) : Io (Nat × Nat) := do
  writeChunkHead .dst chunkDataSize
  let dataStartPos ← tell
  pure (dataStartPos, (dataStartPos + chunkDataSize) % 2 ^ 64)

/-- `dsdiff_chunk_read_dst_header`: the size and where the data start. -/
def chunkReadDstHeader : Io (Nat × Nat) := do
  let chunkSize ← ioReadUint64Be
  let dataStartPos ← tell
  pure (chunkSize, dataStartPos)

def chunkWriteFrte (frameCount : UInt32) (frameRate : UInt16) : Io Unit := do
  writeChunkHead .frte 6
  ioWriteUint32Be frameCount
  ioWriteUint16Be frameRate

/-- `dsdiff_chunk_write_dstf`: where the frame data start. -/
def chunkWriteDstf (frameData : List UInt8) : Io Nat := do
  writeChunkHead .dstf frameData.length
  let position ← tell
  ioWriteBytes frameData
  writePadOf frameData.length
  pure position

/-- `dsdiff_chunk_read_dstf`: the data are read by the low 32 bits of their size. -/
def chunkReadDstf : Io (List UInt8) := do
  let frameSize ← ioReadUint64Be
  let frameData ← ioReadBytes (frameSize % 2 ^ 32)
  require (frameData.length = frameSize) .unexpectedEof
  readPadOf frameSize
  pure frameData

def chunkWriteDstc (crcData : List UInt8) : Io Unit := do
  writeChunkHead .dstc crcData.length
  ioWriteBytes crcData
  writePadOf crcData.length

def chunkGetDstcSize : Io Nat := ioReadUint64Be

def chunkReadDstc : Io (List UInt8) := do
  let crcSize ← ioReadUint64Be
  let crcData ← ioReadBytes crcSize
  readPadOf crcSize
  pure crcData

/-- The loop of `dsdiff_chunk_write_dsti_contents`. -/
def writeIndexes : List Index → Io Unit
  | [] => pure ()
  | index :: indexes => do
    ioWriteUint64Be index.offset
    ioWriteUint32Be index.length
    writeIndexes indexes

def chunkWriteDstiContents (indexes : List Index) : Io Unit := do
  writeChunkHead .dsti (indexes.length * 12)
  writeIndexes indexes

/-- The loop of `dsdiff_chunk_read_dsti_contents`. -/
def readIndexes : Nat → Io (List Index)
  | 0 => pure []
  | n + 1 => do
    let offset ← ioReadUint64Be
    let length ← ioReadUint32Be
    let indexes ← readIndexes n
    pure (⟨offset, length⟩ :: indexes)

/-- `dsdiff_chunk_read_dsti_contents`: the position is restored, also after an error. -/
def chunkReadDstiContents (offset frameCount : Nat) : Io (List Index) := do
  let curPos ← tell
  ioSeekSet offset
  let indexes ← fun f =>
    match readIndexes frameCount f with
    | (.ok indexes, f) => (.ok indexes, f)
    | (.error e, f) => (.error e, (ioSeekSet curPos f).2)
  ioSeekSet curPos
  pure indexes

/-! ## COMT -/

/-- One comment of the loop of `dsdiff_chunk_read_comt`. -/
def readComment : Io Comment := do
  let year ← ioReadUint16Be
  let month ← ioReadUint8
  let day ← ioReadUint8
  let hour ← ioReadUint8
  let minute ← ioReadUint8
  let commentType ← ioReadUint16Be
  let commentRef ← ioReadUint16Be
  let textLen ← ioReadUint32Be
  let text ← readTextOf textLen
  readPadOf textLen.toNat
  pure ⟨year, month, day, hour, minute, commentType, commentRef, textLen, text⟩

def readComments : Nat → Io (List Comment)
  | 0 => pure []
  | n + 1 => do
    let comment ← readComment
    let comments ← readComments n
    pure (comment :: comments)

/-- `dsdiff_chunk_read_comt`; the size of the chunk is not looked at. -/
def chunkReadComt : Io (List Comment) := do
  let _ ← ioReadUint64Be
  let num ← ioReadUint16Be
  readComments num.toNat

/-- What a comment takes in the chunk. -/
def Comment.size (comment : Comment) : Nat :=
  14 + (cstring comment.text).length + (cstring comment.text).length % 2

/-- One comment of the loop of `dsdiff_chunk_write_comt`; its length is that of the text. -/
def writeComment (comment : Comment) : Io Unit := do
  let text := cstring comment.text
  ioWriteUint16Be comment.year
  ioWriteUint8 comment.month
  ioWriteUint8 comment.day
  ioWriteUint8 comment.hour
  ioWriteUint8 comment.minute
  ioWriteUint16Be comment.commentType
  ioWriteUint16Be comment.commentRef
  ioWriteUint32Be (UInt32.ofNat text.length)
  ioWriteBytes text
  writePadOf text.length

def writeComments : List Comment → Io Unit
  | [] => pure ()
  | comment :: comments => do
    writeComment comment
    writeComments comments

def chunkWriteComt (commentCount : UInt16) (comments : List Comment) : Io Unit := do
  let counted := comments.take commentCount.toNat
  writeChunkHead .comt (2 + (counted.map Comment.size).sum)
  ioWriteUint16Be commentCount
  writeComments counted

/-! ## DIIN and the chunks in it -/

/-- `dsdiff_chunk_read_diin_header`: the size. -/
def chunkReadDiinHeader : Io Nat := ioReadUint64Be

def chunkWriteDiinHeader (chunkDataSize : Nat) : Io Unit := writeChunkHead .diin chunkDataSize

def chunkWriteEmid (emid : List UInt8) : Io Unit := do
  writeChunkHead .emid emid.length
  ioWriteBytes emid
  writePadOf emid.length

def chunkReadEmid : Io (List UInt8) := do
  let chunkSize ← ioReadUint64Be
  let numChars := UInt32.ofNat chunkSize
  let text ← readText numChars
  readPadOf numChars.toNat
  pure text

/-- `dsdiff_chunk_write_diar` and `dsdiff_chunk_write_diti`. -/
def writeCountedText (type : ChunkType) (text : List UInt8) : Io Unit := do
  require (text.length < 2 ^ 32) .invalidArg
  writeChunkHead type (text.length + 4 + text.length % 2)
  ioWriteUint32Be (UInt32.ofNat text.length)
  ioWriteBytes text
  writePadOf text.length

def chunkWriteDiar (artist : List UInt8) : Io Unit := writeCountedText .diar artist

def chunkWriteDiti (title : List UInt8) : Io Unit := writeCountedText .diti title

/-- `dsdiff_chunk_read_diar` and `dsdiff_chunk_read_diti`. -/
def readCountedText : Io (List UInt8) := do
  let _ ← ioReadUint64Be
  let numChars ← ioReadUint32Be
  let text ← readText numChars
  readPadOf numChars.toNat
  pure text

def chunkReadDiar : Io (List UInt8) := readCountedText

def chunkReadDiti : Io (List UInt8) := readCountedText

def chunkWriteMark (marker : Marker) : Io Unit := do
  let text := cstring marker.markerText
  writeChunkHead .mark (text.length + 22 + text.length % 2)
  ioWriteUint16Be marker.time.hours
  ioWriteUint8 marker.time.minutes
  ioWriteUint8 marker.time.seconds
  ioWriteUint32Be marker.time.samples
  ioWriteUint32Be marker.offset
  ioWriteUint16Be marker.markType
  ioWriteUint16Be marker.markChannel
  ioWriteUint16Be marker.trackFlags
  ioWriteUint32Be (UInt32.ofNat text.length)
  ioWriteBytes text
  writePadOf text.length

/-- `dsdiff_chunk_read_mark`; the lengths are compared in 32 bits. -/
def chunkReadMark : Io Marker := do
  let chunkSize ← ioReadUint64Be
  let hours ← ioReadUint16Be
  let minutes ← ioReadUint8
  let seconds ← ioReadUint8
  let samples ← ioReadUint32Be
  let offset ← ioReadUint32Be
  let markType ← ioReadUint16Be
  let markChannel ← ioReadUint16Be
  let trackFlags ← ioReadUint16Be
  let textLen ← ioReadUint32Be
  require ((textLen + 22).toNat = chunkSize ∨ (textLen + 22 + 1).toNat = chunkSize) .invalidFile
  let text ← readTextOf textLen
  readPadOf textLen.toNat
  pure ⟨⟨hours, minutes, seconds, samples⟩, markType, markChannel, trackFlags, offset, textLen,
    text⟩

/-! ## ID3 and MANF -/

/-- `dsdiff_chunk_read_id3`; an empty chunk is no tag. -/
def chunkReadId3 : Io (List UInt8) := do
  let chunkDataSize ← ioReadUint64Be
  if chunkDataSize = 0 then
    pure []
  else
    saMalloc chunkDataSize
    let tag ← ioReadBytes chunkDataSize
    readPadOf chunkDataSize
    pure tag

def chunkWriteId3 (tagData : List UInt8) : Io Unit := do
  require (tagData ≠ []) .invalidArg
  writeChunkHead .id3 tagData.length
  ioWriteBytes tagData
  writePadOf tagData.length

/-- `dsdiff_chunk_write_manf`; without data only the size is written. -/
def chunkWriteManf (manId data : List UInt8) (dataSize : UInt32) : Io Unit := do
  writeChunkHead .manf (4 + dataSize.toNat)
  ioWriteBytes manId
  ioWriteBytes data
  writePadOf dataSize.toNat

end DsdNexus.Dsdiff
