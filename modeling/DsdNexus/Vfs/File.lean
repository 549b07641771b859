import DsdNexus.Util.Reverse

/-! # The virtual DSF file handle

The state behind `sacd_vfs_file_t`, the layout `_calculate_virtual_file_size`
computes, the 92 header bytes `_generate_dsf_header` writes, and the handle
`sacd_vfs_file_open` returns. What the handle reads from outside (the SACD
reader, the DST decoder, the ID3 cache) is the `Track` it is opened on.
-/

namespace DsdNexus.Vfs

inductive Status where
  | ok | invalidParameter | notFound | io | memory | notOpen
  | seek | read | format | dstDecode | eof
  deriving DecidableEq, Repr

inductive FrameFormat where
  | dst | dsd3in14 | dsd3in16
  deriving DecidableEq, Repr

/-- `SACD_FRAME_SIZE_64`: bytes per channel of one frame. -/
def frameSize64 : Nat := 4704

/-- `DSF_BLOCK_SIZE_PER_CHANNEL`. -/
def dsfBlockSize : Nat := 4096

/-- `FRAME_BLOCK_ALIGNMENT`: frames after which frames and blocks meet again. -/
def frameBlockAlignment : Nat := 128

def dsdChunkSize : Nat := 28
def fmtChunkSize : Nat := 52
def dataChunkHeaderSize : Nat := 12

/-- One track as the handle sees it: its place in the area, the frame reader
(`none`: `sacd_get_sound_data` failed), the DST decoder (`none`: it reported an
error) and the tag `sacd_vfs_get_id3_tag` returns. -/
structure Track where
  channelCount : Nat
  channelCount_pos : 0 < channelCount
  sampleRate : Nat
  frameFormat : FrameFormat
  startFrame : Nat
  frameCount : Nat
  soundData : Nat → Option Bytes
  dstDecode : Bytes → Option Bytes
  id3Tag : Option Bytes

structure FileInfo where
  totalSize : Nat
  headerSize : Nat
  audioDataSize : Nat
  metadataOffset : Nat
  metadataSize : Nat
  channelCount : Nat
  sampleRate : Nat
  sampleCount : Nat
  frameFormat : FrameFormat

structure VfsFile where
  position : Nat
  info : FileInfo
  dsfHeader : Bytes
  dsfHeaderSize : Nat
  startFrame : Nat
  endFrame : Nat
  currentFrame : Nat
  /-- The handle holds a decoder and its output buffer. -/
  dstDecoder : Bool
  /-- `channel_buffers[ch][i]`; only indices below `bytesBuffered` count. -/
  channelBuffers : Nat → Nat → UInt8
  bytesBuffered : Nat
  transformBuffer : Bytes
  transformBufferPos : Nat
  transformBufferLen : Nat
  seekSkipBytes : Nat
  audioEarlyEof : Bool

/-! ## Layout -/

/-- The blocks per channel that hold `frames` frames. -/
def numBlocks (frames : Nat) : Nat := (frames * frameSize64 + dsfBlockSize - 1) / dsfBlockSize

/-- `_calculate_virtual_file_size`, over the fields the open has filled in. -/
def calculateVirtualFileSize (t : Track) (info : FileInfo) (frames : Nat) : FileInfo :=
  let headerSize := dsdChunkSize + fmtChunkSize + dataChunkHeaderSize
  let audioDataSize := numBlocks frames * dsfBlockSize * info.channelCount
  let metadataSize := match t.id3Tag with
    | some tag => tag.length
    | none => 0
  let metadataOffset := headerSize + audioDataSize
  { info with
    audioDataSize := audioDataSize
    metadataSize := metadataSize
    metadataOffset := metadataOffset
    totalSize := metadataOffset + metadataSize
    headerSize := headerSize }

/-- `memcpy` of a little-endian integer of `width` bytes. -/
def leBytes : Nat → Nat → Bytes
  | 0, _ => []
  | width + 1, n => UInt8.ofNat n :: leBytes width (n / 256)

@[simp] theorem leBytes_length (width n : Nat) : (leBytes width n).length = width := by
  induction width generalizing n with
  | zero => rfl
  | succ width ih => simp [leBytes, ih]

/-- The `fmt ` channel type of a channel count. -/
def dsfChannelType : Nat → Nat
  | 1 => 1
  | 2 => 2
  | 3 => 3
  | 4 => 4
  | 5 => 6
  | 6 => 7
  | _ => 2

/-- `_generate_dsf_header`. -/
def generateDsfHeader (info : FileInfo) : Bytes :=
  [0x44, 0x53, 0x44, 0x20] ++ leBytes 8 dsdChunkSize ++ leBytes 8 info.totalSize ++
    leBytes 8 info.metadataOffset ++
  [0x66, 0x6D, 0x74, 0x20] ++ leBytes 8 fmtChunkSize ++ leBytes 4 1 ++ leBytes 4 0 ++
    leBytes 4 (dsfChannelType info.channelCount) ++ leBytes 4 info.channelCount ++
    leBytes 4 info.sampleRate ++ leBytes 4 1 ++ leBytes 8 info.sampleCount ++
    leBytes 4 dsfBlockSize ++ leBytes 4 0 ++
  [0x64, 0x61, 0x74, 0x61] ++ leBytes 8 (dataChunkHeaderSize + info.audioDataSize)

@[simp] theorem generateDsfHeader_length (info : FileInfo) :
    (generateDsfHeader info).length = dsdChunkSize + fmtChunkSize + dataChunkHeaderSize := by
  simp [generateDsfHeader, dsdChunkSize, fmtChunkSize, dataChunkHeaderSize]

/-! ## Opening -/

/-- The info record of an open handle. -/
def Track.info (t : Track) : FileInfo :=
  calculateVirtualFileSize t
    { totalSize := 0, headerSize := 0, audioDataSize := 0, metadataOffset := 0, metadataSize := 0
      channelCount := t.channelCount
      sampleRate := t.sampleRate
      sampleCount := t.frameCount * frameSize64 * 8
      frameFormat := t.frameFormat }
    t.frameCount

/-- `sacd_vfs_file_open` once the path is resolved and the allocations have succeeded. -/
def sacdVfsFileOpen (t : Track) : VfsFile :=
  { position := 0
    info := t.info
    dsfHeader := generateDsfHeader t.info
    dsfHeaderSize := (generateDsfHeader t.info).length
    startFrame := t.startFrame
    endFrame := t.startFrame + t.frameCount
    currentFrame := t.startFrame
    dstDecoder := t.frameFormat = .dst
    channelBuffers := fun _ _ => 0
    bytesBuffered := 0
    transformBuffer := []
    transformBufferPos := 0
    transformBufferLen := 0
    seekSkipBytes := 0
    audioEarlyEof := false }

/-- What no operation on an open handle changes. -/
structure VfsFile.OpenedOn (t : Track) (f : VfsFile) : Prop where
  info : f.info = t.info
  header : f.dsfHeader = generateDsfHeader t.info
  headerSize : f.dsfHeaderSize = (generateDsfHeader t.info).length
  start : f.startFrame = t.startFrame
  stop : f.endFrame = t.startFrame + t.frameCount
  decoder : f.dstDecoder = decide (t.frameFormat = .dst)

theorem sacdVfsFileOpen_openedOn (t : Track) : (sacdVfsFileOpen t).OpenedOn t :=
  ⟨rfl, rfl, rfl, rfl, rfl, rfl⟩

end DsdNexus.Vfs
