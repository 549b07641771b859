import DsdNexus.Lib.Endian
import DsdNexus.Lib.FileProgram
import DsdNexus.Util.Words
import Mathlib.Data.List.TakeWhile

/-! # DSDIFF: chunk ids, channel ids and records

`dsdiff_types.h` and the records of `dsdiff.h`. A chunk id is the four bytes it has in the
file; the numbers of the records have the widths of their C types.
-/

namespace DsdNexus.Dsdiff

/-- `dsdiff_error_t`, and what reads past a buffer. -/
inductive Error where
  | alreadyOpen
  | notOpen
  | modeReadOnly
  | modeWriteOnly
  | invalidFile
  | invalidVersion
  | unsupportedCompression
  | unexpectedEof
  | invalidChunk
  | readFailed
  | writeFailed
  | seekFailed
  | endOfData
  | maxFileSize
  | noTimecode
  | noLsconfig
  | noDstIndex
  | invalidArg
  | outOfMemory
  | invalidChannels
  | bufferTooSmall
  | postCreateForbidden
  | chunkLocked
  | requiresDsd
  | requiresDst
  | crcAlreadyPresent
  /-- The code reads past the end of a buffer here, or divides by zero. -/
  | undefined
deriving DecidableEq

/-! ## Chunks -/

/-- `dsdiff_chunk_type_t`. -/
inductive ChunkType where
  | abss | chnl | cmpr | comt | diar | diin | diti | dsd | dst | dstc | dstf | dsti
  | emid | frm8 | frte | fs | fver | id3 | lsco | manf | mark | prop | snd
  | unknown
deriving DecidableEq

/-- The codes of `DSDIFF_CHUNK_LIST`. -/
def ChunkType.fourcc : ChunkType → List UInt8
  | .abss => makeMarker 'A' 'B' 'S' 'S'
  | .chnl => makeMarker 'C' 'H' 'N' 'L'
  | .cmpr => makeMarker 'C' 'M' 'P' 'R'
  | .comt => makeMarker 'C' 'O' 'M' 'T'
  | .diar => makeMarker 'D' 'I' 'A' 'R'
  | .diin => makeMarker 'D' 'I' 'I' 'N'
  | .diti => makeMarker 'D' 'I' 'T' 'I'
  | .dsd => makeMarker 'D' 'S' 'D' ' '
  | .dst => makeMarker 'D' 'S' 'T' ' '
  | .dstc => makeMarker 'D' 'S' 'T' 'C'
  | .dstf => makeMarker 'D' 'S' 'T' 'F'
  | .dsti => makeMarker 'D' 'S' 'T' 'I'
  | .emid => makeMarker 'E' 'M' 'I' 'D'
  | .frm8 => makeMarker 'F' 'R' 'M' '8'
  | .frte => makeMarker 'F' 'R' 'T' 'E'
  | .fs => makeMarker 'F' 'S' ' ' ' '
  | .fver => makeMarker 'F' 'V' 'E' 'R'
  | .id3 => makeMarker 'I' 'D' '3' ' '
  | .lsco => makeMarker 'L' 'S' 'C' 'O'
  | .manf => makeMarker 'M' 'A' 'N' 'F'
  | .mark => makeMarker 'M' 'A' 'R' 'K'
  | .prop => makeMarker 'P' 'R' 'O' 'P'
  | .snd => makeMarker 'S' 'N' 'D' ' '
  | .unknown => []

/-- `DSDIFF_CHUNK_LIST`. -/
def chunkList : List ChunkType :=
  [.abss, .chnl, .cmpr, .comt, .diar, .diin, .diti, .dsd, .dst, .dstc, .dstf, .dsti, .emid,
    .frm8, .frte, .fs, .fver, .id3, .lsco, .manf, .mark, .prop, .snd]

/-- The `switch` of `dsdiff_chunk_read_header`. -/
def ChunkType.ofFourcc (code : List UInt8) : ChunkType :=
  (chunkList.find? fun t => t.fourcc = code).getD .unknown

theorem ChunkType.fourcc_length {t : ChunkType} (h : t ≠ .unknown) : t.fourcc.length = 4 := by
  cases t <;> first | rfl | exact absurd rfl h

theorem ChunkType.ofFourcc_fourcc (t : ChunkType) : ofFourcc t.fourcc = t := by
  cases t <;> decide

/-! ## Channels -/

/-- `dsdiff_channel_id_t`. -/
abbrev ChannelId := Nat

def ChannelId.slft : ChannelId := 1000
def ChannelId.srgt : ChannelId := 1001
def ChannelId.mlft : ChannelId := 1002
def ChannelId.mrgt : ChannelId := 1003
def ChannelId.ls : ChannelId := 1004
def ChannelId.rs : ChannelId := 1005
def ChannelId.c : ChannelId := 1006
def ChannelId.lfe : ChannelId := 1007
def ChannelId.invalid : ChannelId := 9999

/-- `DSDIFF_CHANNEL_LIST`, with the code of each channel. -/
def channelList : List (ChannelId × List UInt8) :=
  [(ChannelId.slft, makeMarker 'S' 'L' 'F' 'T'), (ChannelId.srgt, makeMarker 'S' 'R' 'G' 'T'),
    (ChannelId.mlft, makeMarker 'M' 'L' 'F' 'T'), (ChannelId.mrgt, makeMarker 'M' 'R' 'G' 'T'),
    (ChannelId.ls, makeMarker 'L' 'S' ' ' ' '), (ChannelId.rs, makeMarker 'R' 'S' ' ' ' '),
    (ChannelId.c, makeMarker 'C' ' ' ' ' ' '), (ChannelId.lfe, makeMarker 'L' 'F' 'E' ' ')]

/-- `channel_code_map`: where the channel has an entry of its own. -/
def channelCodeMap (id : ChannelId) : Option (List UInt8) :=
  if id = ChannelId.invalid then some [0xED, 0xFE, 0xED, 0xFE]
  else (channelList.find? fun e => e.1 = id).map Prod.snd

/-- The code `dsdiff_chunk_write_chnl` writes. A numbered channel is put together as
`('C' << 24) | ...`, so that its letter comes last in the file. -/
def channelCode (id : ChannelId) : Option (List UInt8) :=
  match channelCodeMap id with
  | some code => some code
  | none =>
    if id ≤ 999 then
      some [UInt8.ofNat (id % 10 + 48), UInt8.ofNat (id % 100 / 10 + 48),
        UInt8.ofNat (id / 100 + 48), 'C'.toUInt8]
    else none

/-- A character of a channel number. -/
def isDigit (b : UInt8) : Bool := 48 ≤ b && b ≤ 57

/-- The `switch` of `dsdiff_chunk_read_chnl`. -/
def channelOfCode (code : List UInt8) : ChannelId :=
  match channelList.find? fun e => e.2 = code with
  | some e => e.1
  | none =>
    match code with
    | [b3, b2, b1, b0] =>
      if b0 = 'C'.toUInt8 ∧ isDigit b1 ∧ isDigit b2 ∧ isDigit b3 then
        (b3.toNat - 48) + 10 * (b2.toNat - 48) + 100 * (b1.toNat - 48)
      else ChannelId.invalid
    | _ => ChannelId.invalid

/-! ## Records -/

/-- `dsdiff_audio_type_t`. -/
inductive AudioType where
  | dsd
  | dst
  | unknown
deriving DecidableEq

/-- `dsdiff_timecode_t`. -/
structure Timecode where
  hours : UInt16
  minutes : UInt8
  seconds : UInt8
  samples : UInt32
deriving DecidableEq, Inhabited

/-- `dsdiff_comment_t`; a null text is the empty one. -/
structure Comment where
  year : UInt16
  month : UInt8
  day : UInt8
  hour : UInt8
  minute : UInt8
  commentType : UInt16
  commentRef : UInt16
  textLength : UInt32
  text : List UInt8
deriving DecidableEq

/-- `dsdiff_marker_t`. -/
structure Marker where
  time : Timecode
  markType : UInt16
  markChannel : UInt16
  trackFlags : UInt16
  offset : UInt32
  textLength : UInt32
  markerText : List UInt8
deriving DecidableEq

/-- `dsdiff_marker_entry_t`: what `dsdiff_marker_entry_create` copies of a marker. -/
structure MarkerEntry where
  time : Timecode
  markType : UInt16
  markerText : List UInt8
  sampleRate : UInt32
deriving DecidableEq

/-- `dsdiff_index_t`. -/
structure Index where
  offset : Nat
  length : UInt32
deriving DecidableEq

/-- `dsdiff_manufacturer_t`; its id has four bytes, null data are the empty ones. -/
structure Manufacturer where
  manId : List UInt8
  dataSize : UInt32
  data : List UInt8
  fourBytes : manId.length = 4
deriving DecidableEq

/-- `strlen`, of the bytes of a buffer that is terminated behind them at the latest. -/
def cstring (bytes : List UInt8) : List UInt8 := bytes.takeWhile (· ≠ 0)

theorem cstring_of_not_mem {bytes : List UInt8} (h : 0 ∉ bytes) : cstring bytes = bytes := by
  refine List.takeWhile_eq_self_iff.2 fun b hb => ?_
  have hne : b ≠ 0 := fun h0 => h (h0 ▸ hb)
  simp [hne]

end DsdNexus.Dsdiff
