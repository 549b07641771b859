import DsdNexus.Sacd.Charset
import DsdNexus.Sacd.DstReader
import DsdNexus.Sacd.SoundData
import DsdNexus.Util.Words

/-! # Reading an area TOC

`sacd_area_toc_read` reads the sectors of an area TOC into a sector buffer and decodes them
in place; the lists that span sectors it puts together in a scratch buffer of 65536 bytes,
which it fills anew for every list. A read outside the sector buffer or the part of the
scratch buffer filled so far stops the parse here.
-/

namespace DsdNexus.Sacd.Area

open Attempt Endian

/-! ## Status values -/

def ioError : Int := 2

def memoryAllocationError : Int := 3

def noData : Int := 5

def invalidSignature : Int := 6

def channelCountError : Int := 7

def frameFormatError : Int := 8

/-! ## The sector buffer -/

/-- The sectors of an area TOC as they were read, each with its header and trailer. -/
structure TocSectors where
  sectorSize : Nat
  headerSize : Nat
  fits : headerSize + lsnSize ≤ sectorSize
  tocAreaLength : UInt16
  buffer : Bytes
  buffer_length : buffer.length = tocAreaLength.toNat * sectorSize

/-- The 2048 bytes of sector `s` behind its header. -/
def TocSectors.read (b : TocSectors) (s : Nat) : Parse Bytes :=
  readBytes .outside b.buffer (s * b.sectorSize + b.headerSize) lsnSize

/-- The big-endian number of `w` bytes at `p` of a structure. -/
def be (b : Bytes) (p w : Nat) : Nat := ofBe (slice b p w)

/-- `time_to_frame` of the time code at `p`. -/
def timeAt (b : Bytes) (p : Nat) : UInt32 :=
  UInt32.ofNat (timeToFrame ⟨byteAt b p, byteAt b (p + 1), byteAt b (p + 2), 0⟩)

/-- `MAKE_MARKER64` -/
def makeMarker64 (a b c d e f g h : Char) : Bytes := makeMarker a b c d ++ makeMarker e f g h

def area2chTocSign : Bytes := makeMarker64 'T' 'W' 'O' 'C' 'H' 'T' 'O' 'C'

def areaMchTocSign : Bytes := makeMarker64 'M' 'U' 'L' 'C' 'H' 'T' 'O' 'C'

def trackList1Sign : Bytes := makeMarker64 'S' 'A' 'C' 'D' 'T' 'R' 'L' '1'

def trackList2Sign : Bytes := makeMarker64 'S' 'A' 'C' 'D' 'T' 'R' 'L' '2'

def isrcGenreSign : Bytes := makeMarker64 'S' 'A' 'C' 'D' '_' 'I' 'G' 'L'

def accessListSign : Bytes := makeMarker64 'S' 'A' 'C' 'D' '_' 'A' 'C' 'C'

def trackTextSign : Bytes := makeMarker64 'S' 'A' 'C' 'D' 'T' 'T' 'x' 't'

def indexListSign : Bytes := makeMarker64 'S' 'A' 'C' 'D' '_' 'I' 'n' 'd'

def signature (b : Bytes) : Bytes := slice b 0 8

/-! ## The first sector -/

/-- `chan_info_t` -/
structure ChannelInfo where
  languageCode : Nat
  characterSetCode : Nat
  deriving DecidableEq, Repr

/-- A channel whose texts are skipped. -/
def ChannelInfo.Invalid (info : ChannelInfo) : Prop :=
  info.characterSetCode = 0 ∨ info.languageCode = 0

instance (info : ChannelInfo) : Decidable info.Invalid := inferInstanceAs (Decidable (_ ∨ _))

def maxTextChannelCount : Nat := 8

def maxAreaTextTypeCount : Nat := 4

/-- `area_data_t`, without the marks of its reserved bytes; `areaText` gives the offset of a
text by channel and type. -/
structure AreaData where
  version : Nat × Nat
  maxByteRate : UInt32
  fsCode : Nat
  frameFormat : Nat
  channelCount : Nat
  loudspeakerConfig : Nat
  extraSettings : Nat
  maxAvailableChannels : Nat
  areaMuteFlags : Nat
  trackAttribute : Nat
  totalAreaPlayTime : UInt32
  trackOffset : Nat
  trackCount : Nat
  trackAreaStart : UInt32
  trackAreaEnd : UInt32
  textChannelCount : Nat
  channelInfo : List ChannelInfo
  trackTextPtr : Nat
  indexListPtr : Nat
  accessListPtr : Nat
  areaText : List (List Nat)
  deriving DecidableEq, Repr

/-- The fields of the first sector; more than eight text channels count as none. -/
def areaData (b : Bytes) : AreaData :=
  { version := (byteAt b 8, byteAt b 9)
    maxByteRate := UInt32.ofNat (be b 16 4)
    fsCode := byteAt b 20
    frameFormat := byteAt b 21 % 16
    channelCount := byteAt b 32
    loudspeakerConfig := byteAt b 33 / 8
    extraSettings := byteAt b 33 % 8
    maxAvailableChannels := byteAt b 34
    areaMuteFlags := byteAt b 35
    trackAttribute := byteAt b 48 % 128
    totalAreaPlayTime := timeAt b 64
    trackOffset := byteAt b 68
    trackCount := byteAt b 69
    trackAreaStart := UInt32.ofNat (be b 72 4)
    trackAreaEnd := UInt32.ofNat (be b 76 4)
    textChannelCount := if byteAt b 80 ≤ maxTextChannelCount then byteAt b 80 else 0
    channelInfo := (List.range maxTextChannelCount).map fun i =>
      ⟨be b (88 + 4 * i) 2, byteAt b (88 + 4 * i + 2)⟩
    trackTextPtr := be b 128 2
    indexListPtr := be b 130 2
    accessListPtr := be b 132 2
    areaText := (List.range maxTextChannelCount).map fun i =>
      (List.range maxAreaTextTypeCount).map fun t => be b (146 + 8 * i + 2 * t) 2 }

/-- `ctx->channel_info[i]`, set for the channels in use. -/
def AreaData.info (data : AreaData) (i : Nat) : ChannelInfo :=
  if i < data.textChannelCount then data.channelInfo.getD i ⟨0, 0⟩ else ⟨0, 0⟩

inductive AreaType where
  | twoChannel
  | multiChannel
  deriving DecidableEq, Repr

/-! ## The checks -/

/-- The pointers to the optional lists lie within the TOC. -/
def AreaData.PointersValid (data : AreaData) (tocAreaLength : Nat) : Prop :=
  (data.accessListPtr ≠ 0 → data.accessListPtr < tocAreaLength) ∧
    (data.trackTextPtr ≠ 0 → data.trackTextPtr < tocAreaLength) ∧
    (data.indexListPtr ≠ 0 → data.indexListPtr < tocAreaLength)

instance (data : AreaData) (n : Nat) : Decidable (data.PointersValid n) :=
  inferInstanceAs (Decidable (_ ∧ _))

/-- `&&` -/
def both (x y : Parse Bool) : Parse Bool := do
  let valid ← x
  if valid then y else .ok false

/-- The signature of a list that must be there. -/
def signed (b : TocSectors) (s : Nat) (sign : Bytes) : Parse Bool := do
  let sector ← b.read s
  .ok (decide (signature sector = sign))

/-- The signature of a list that may be left out. -/
def signedIfPresent (b : TocSectors) (s : Nat) (sign : Bytes) : Parse Bool :=
  if s = 0 then .ok true else signed b s sign

def signaturesValid (b : TocSectors) (first : Bytes) (areaType : AreaType) : Parse Bool := do
  let data := areaData first
  let area := decide (signature first =
    if areaType = .twoChannel then area2chTocSign else areaMchTocSign)
  let required ← both (signed b 1 trackList1Sign)
    (both (signed b 2 trackList2Sign) (signed b 3 isrcGenreSign))
  let optional ← both (signedIfPresent b data.accessListPtr accessListSign)
    (both (signedIfPresent b data.trackTextPtr trackTextSign)
      (signedIfPresent b data.indexListPtr indexListSign))
  .ok (area && required && optional)

def AreaData.ChannelCountValid (data : AreaData) (areaType : AreaType) : Prop :=
  (data.channelCount = 2 ∧ areaType = .twoChannel) ∨
    (data.channelCount = 5 ∧ areaType = .multiChannel) ∨
    (data.channelCount = 6 ∧ areaType = .multiChannel)

instance (data : AreaData) (areaType : AreaType) : Decidable (data.ChannelCountValid areaType) :=
  inferInstanceAs (Decidable (_ ∨ _))

/-- `frame_format_t` of the formats a frame reader is made for. -/
def frameFormat : Nat → FrameFormat
  | 0 => .dst
  | 2 => .dsd3In14
  | 3 => .dsd3In16
  | _ => .unknown

/-! ## The texts of the area -/

/-- The offset must be set and lie in the first sector. -/
def readAreaText (convert : Convert) (b : TocSectors) (data : AreaData) (channel type : Nat) :
    Parse (Option Bytes) :=
  let textOffset := (data.areaText.getD channel []).getD type 0
  if textOffset ≠ 0 ∧ textOffset < lsnSize then
    specialStringToUtf8 convert b.buffer (b.headerSize + textOffset)
      (data.info channel).characterSetCode
  else .ok none

/-- The texts by channel and type; those of an invalid channel are left out. -/
def readAreaTexts (convert : Convert) (b : TocSectors) (data : AreaData) :
    Parse (List (List (Option Bytes))) :=
  collect (fun channel =>
    if (data.info channel).Invalid then .ok []
    else collect (readAreaText convert b data channel) (List.range maxAreaTextTypeCount))
    (List.range data.textChannelCount)

/-! ## The scratch buffer -/

def isrcFirstSectorCount : Nat := 170

def maxIndexCount : Nat := 255

/-- The payloads of the `n` sectors from `s` on. -/
def readSectors (b : TocSectors) (s n : Nat) : Parse Bytes := do
  let sectors ← collect (fun i => b.read (s + i)) (List.range n)
  .ok sectors.flatten

/-- The sectors of a list up to the end of the TOC, at most so many. -/
def fill (b : TocSectors) (s limit : Nat) : Parse Bytes :=
  readSectors b s (min (b.tocAreaLength.toNat - s) limit)

/-! ## Index points -/

/-- Where the record area of the index list starts. -/
def indexRecords : Nat := 524

/-- The start of stored index `i` of the record at `p`. -/
def readIndexStart (scratch : Bytes) (p i : Nat) : Parse UInt32 := do
  let time ← readBytes .outside scratch (p + 1 + 3 * i) 3
  .ok (timeAt time 0)

/-- The extra index points of a track and the scratch buffer after. The pointer of the track
is checked; the record read is `index_start->`, the first of the list. -/
def readIndexes (b : TocSectors) (data : AreaData) (track : Nat) (scratch : Bytes) :
    Parse (List UInt32 × Bytes) :=
  if data.indexListPtr = 0 then .ok ([], scratch)
  else do
    let sectors ← fill b data.indexListPtr 10
    let scratch := store scratch sectors
    let indexList ← b.read data.indexListPtr
    let indexOffset := be indexList (8 + 2 * track) 2
    if indexOffset ≠ 0 ∧ indexOffset < sectors.length then do
      let stored ← readBe .outside scratch indexRecords 1
      let starts ← collect (readIndexStart scratch indexRecords)
        (List.range (min stored (maxIndexCount - 1)))
      .ok (starts, scratch)
    else .ok ([], scratch)

/-! ## Track text -/

/-- `area_toc_text_track_t` -/
structure TextItem where
  textType : Nat
  text : Option Bytes
  deriving DecidableEq, Repr

/-- The next multiple of four. -/
def alignFour (n : Nat) : Nat := (n + 3) / 4 * 4

/-- The items of a text item block from `offset` on, which is kept in a `uint16_t`; `items` is
the address of `p_text_item->text`. -/
def readItems (convert : Convert) (scratch : Bytes) (items code : Nat) :
    Nat → Nat → Parse (List TextItem)
  | 0, _ => .ok []
  | n + 1, offset => do
    let type ← readBe .outside scratch (items + offset) 1
    let text ← specialStringToUtf8 convert scratch (items + offset + 2) code
    let textLength ← specialStringLen scratch (items + offset + 2) code
    let rest ← readItems convert scratch items code n ((offset + alignFour textLength) % 65536)
    .ok (⟨type, text⟩ :: rest)

/-- The items of a track in a text channel, `none` where it has no block. -/
def readChannelText (convert : Convert) (scratch : Bytes) (scratchSize : Nat) (data : AreaData)
    (track channel : Nat) : Parse (Option (List TextItem)) :=
  if (data.info channel).Invalid then .ok none
  else do
    let offset ← readBe .outside scratch (8 + 2 * (channel * data.trackCount + track)) 2
    if offset ≠ 0 ∧ offset < scratchSize then do
      let itemCount ← readBe .outside scratch offset 1
      let items ← readItems convert scratch (offset + 4) (data.info channel).characterSetCode
        itemCount 0
      .ok (some items)
    else .ok none

/-- The texts of a track by channel and the scratch buffer after. -/
def readTrackText (convert : Convert) (b : TocSectors) (data : AreaData) (track : Nat)
    (scratch : Bytes) : Parse (List (Option (List TextItem)) × Bytes) :=
  if data.trackTextPtr = 0 then .ok ([], scratch)
  else do
    let sectors ← fill b data.trackTextPtr 32
    let scratch := store scratch sectors
    let texts ← collect (readChannelText convert scratch sectors.length data track)
      (List.range data.textChannelCount)
    .ok (texts, scratch)

/-- `track_text_item_count`, which every channel with a block sets. -/
def textItemCount (texts : List (Option (List TextItem))) : Nat :=
  texts.foldl (fun count text => (text.map List.length).getD count) 0

/-! ## Tracks -/

/-- `area_toc_track_info_t`. `track_text` has a place for every channel in use. -/
structure TrackInfo where
  isrc : Bytes
  genreTable : Nat
  genreIndex : Nat
  trackLength : UInt32
  trackMode : Nat
  trackFlagTmf1 : Bool
  trackFlagTmf2 : Bool
  trackFlagTmf3 : Bool
  trackFlagTmf4 : Bool
  trackFlagIlp : Bool
  trackStartLsn : UInt32
  trackSectorLength : UInt32
  indexStart : List UInt32
  indexCount : UInt8
  trackText : List (Option (List TextItem))
  trackTextItemCount : Nat
  deriving DecidableEq, Repr

/-- The sectors that every area TOC has behind the first. -/
structure TrackLists where
  trackList1 : Bytes
  trackList2 : Bytes
  isrcGenreList1 : Bytes

/-- `track_start_lsn[track]` -/
def trackStartLsn (lists : TrackLists) (track : Nat) : UInt32 :=
  UInt32.ofNat (be lists.trackList1 (8 + 4 * track) 4)

/-- Up to the start of the next track, or to the end of the area. -/
def trackSectorLength (data : AreaData) (lists : TrackLists) (track : Nat) : UInt32 :=
  if track + 1 < data.trackCount then
    trackStartLsn lists (track + 1) - trackStartLsn lists track + 1
  else data.trackAreaEnd - trackStartLsn lists track + 1

/-- `track_start_time_code` -/
def trackStart (lists : TrackLists) (track : Nat) : UInt32 :=
  timeAt lists.trackList2 (8 + 4 * track)

/-- `track_time_length` -/
def trackLength (lists : TrackLists) (track : Nat) : UInt32 :=
  timeAt lists.trackList2 (1028 + 4 * track)

/-- Bit `i` of the flags of a track. -/
def trackFlag (lists : TrackLists) (track i : Nat) : Bool :=
  decide (byteAt lists.trackList2 (1031 + 4 * track) / 2 ^ i % 2 = 1)

/-- What a track leaves to the next: the frame its pause starts at and the scratch buffer. -/
structure Running where
  startFrame : UInt32
  scratch : Bytes

/-- The fields of a track, with its stored index starts and its texts. -/
def trackInfo (data : AreaData) (lists : TrackLists) (isrcGenreList2 : Bytes) (track : Nat)
    (startFrame : UInt32) (extra : List UInt32) (texts : List (Option (List TextItem))) :
    TrackInfo :=
  { isrc :=
      if track < isrcFirstSectorCount then slice lists.isrcGenreList1 (8 + 12 * track) 12
      else slice isrcGenreList2 (12 * (track - isrcFirstSectorCount)) 12
    genreTable := byteAt isrcGenreList2 (1024 + 4 * track)
    genreIndex := be isrcGenreList2 (1024 + 4 * track + 2) 2
    trackLength := trackLength lists track
    trackMode := byteAt lists.trackList2 (8 + 4 * track + 3)
    trackFlagTmf1 := trackFlag lists track 3
    trackFlagTmf2 := trackFlag lists track 4
    trackFlagTmf3 := trackFlag lists track 5
    trackFlagTmf4 := trackFlag lists track 6
    trackFlagIlp := trackFlag lists track 7
    trackStartLsn := trackStartLsn lists track
    trackSectorLength := trackSectorLength data lists track
    indexStart := startFrame :: trackStart lists track :: extra
    indexCount := UInt8.ofNat (extra.length + 2)
    trackText := texts
    trackTextItemCount := textItemCount texts }

/-- One turn of the track loop. -/
def readTrack (convert : Convert) (b : TocSectors) (data : AreaData) (lists : TrackLists)
    (track : Nat) (running : Running) : Parse (TrackInfo × Running) := do
  let isrcGenreList2 ← b.read 4
  let (extra, scratch) ← readIndexes b data track running.scratch
  let (texts, scratch) ← readTrackText convert b data track scratch
  .ok (trackInfo data lists isrcGenreList2 track running.startFrame extra texts,
    ⟨trackStart lists track + trackLength lists track, scratch⟩)

/-- The track loop, with `n` tracks to go. -/
def readTracks (convert : Convert) (b : TocSectors) (data : AreaData) (lists : TrackLists) :
    Nat → Nat → Running → Parse (List TrackInfo)
  | 0, _, _ => .ok []
  | n + 1, track, running => do
    let (info, running) ← readTrack convert b data lists track running
    let rest ← readTracks convert b data lists n (track + 1) running
    .ok (info :: rest)

/-! ## The access list -/

/-- The five bytes of entry `i`. -/
def readAccessEntry (scratch : Bytes) (i : Nat) : Parse Bytes :=
  readBytes .outside scratch (16 + 5 * i) 5

/-- The list of the entries. -/
def accessListOf (scratch : Bytes) (entries : List Bytes) : AccessList :=
  { stepSize := UInt8.ofNat (byteAt scratch 10)
    numEntries := UInt16.ofNat (be scratch 8 2)
    frameStart := some (entries.map fun entry => UInt32.ofNat (be entry 2 3))
    accessMargin := some (entries.map fun entry => UInt16.ofNat (be entry 0 2 % 32768)) }

/-- The list whose entries lie in the scratch buffer. -/
def accessList (scratch : Bytes) : AccessList :=
  accessListOf scratch ((List.range (be scratch 8 2)).map fun i => slice scratch (16 + 5 * i) 5)

/-- The whole of the 32 sectors is put into the scratch buffer, whether the TOC has them or
not. -/
def readAccessList (b : TocSectors) (data : AreaData) : Parse AccessList :=
  if data.accessListPtr = 0 then .ok ⟨180, 1, none, none⟩
  else do
    let scratch ← readSectors b data.accessListPtr 32
    let entries ← collect (readAccessEntry scratch) (List.range (be scratch 8 2))
    .ok (accessListOf scratch entries)

/-! ## The area TOC -/

/-- `area_toc_t` after a read; the fields taken over from the first sector are those of
`AreaData`. A context that is not initialized has no such value. -/
structure Toc where
  data : AreaData
  format : FrameFormat
  areaText : List (List (Option Bytes))
  trackInfo : List TrackInfo
  frameInfo : AccessList
  curFrameNumData : UInt32
  curTrackNum : Nat
  curIndexNum : Nat
  curFrameNumText : UInt32
  frameStart : UInt32
  frameStop : UInt32
  deriving DecidableEq, Repr

/-- The context after a successful read. -/
def Toc.accepted (data : AreaData) (areaText : List (List (Option Bytes)))
    (trackInfo : List TrackInfo) (frameInfo : AccessList) : Toc :=
  { data := data
    format := frameFormat data.frameFormat
    areaText := areaText
    trackInfo := trackInfo
    frameInfo := frameInfo
    curFrameNumData := 0
    curTrackNum := 1
    curIndexNum := 1
    curFrameNumText := 0
    frameStart := 1
    frameStop := 1 }

def readLists (b : TocSectors) : Parse TrackLists := do
  let trackList1 ← b.read 1
  let trackList2 ← b.read 2
  let isrcGenreList1 ← b.read 3
  .ok ⟨trackList1, trackList2, isrcGenreList1⟩

/-- What is decoded once the checks of the first sector have passed. -/
def decodeLists (convert : Convert) (b : TocSectors) (data : AreaData) : Parse Toc := do
  let areaText ← readAreaTexts convert b data
  let lists ← readLists b
  let trackInfo ← readTracks convert b data lists data.trackCount 0 ⟨0, []⟩
  let frameInfo ← readAccessList b data
  if frameFormat data.frameFormat = .unknown then .error (.status frameFormatError)
  else .ok (.accepted data areaText trackInfo frameInfo)

/-- The decoding of the sectors. -/
def decode (convert : Convert) (b : TocSectors) (areaType : AreaType) : Parse Toc := do
  let first ← b.read 0
  if ¬ (areaData first).PointersValid b.tocAreaLength.toNat then
    .error (.status invalidSignature)
  else
    let valid ← signaturesValid b first areaType
    if valid = false then .error (.status invalidSignature)
    else if ¬ (areaData first).ChannelCountValid areaType then
      .error (.status channelCountError)
    else decodeLists convert b (areaData first)

/-- An input and the layout of its sectors. -/
structure TocSource where
  sectorSize : Nat
  headerSize : Nat
  fits : headerSize + lsnSize ≤ sectorSize
  input : Input sectorSize

theorem stored_take_length {src : TocSource} {lsn : UInt32} {tocAreaLength : UInt16}
    (hok : (src.input.readSectors lsn tocAreaLength.toUInt32).ok = true)
    (hread : (src.input.readSectors lsn tocAreaLength.toUInt32).sectorsRead =
      tocAreaLength.toUInt32) :
    ((src.input.readSectors lsn tocAreaLength.toUInt32).stored.take
      (tocAreaLength.toNat * src.sectorSize)).length = tocAreaLength.toNat * src.sectorSize := by
  have hlen := src.input.stored_sectors lsn tocAreaLength.toUInt32 hok
  rw [hread, UInt16.toNat_toUInt32] at hlen
  rw [List.length_take, Nat.min_eq_left hlen]

/-- Allocate the sector buffer and read the TOC into it. -/
def fetchToc (src : TocSource) (lsn : UInt32) (tocAreaLength : UInt16) : Parse TocSectors :=
  if maxAllocSize < src.sectorSize * tocAreaLength.toNat then
    .error (.status memoryAllocationError)
  else if hok : (src.input.readSectors lsn tocAreaLength.toUInt32).ok = true then
    if hread : (src.input.readSectors lsn tocAreaLength.toUInt32).sectorsRead =
        tocAreaLength.toUInt32 then
      .ok ⟨src.sectorSize, src.headerSize, src.fits, tocAreaLength, _,
        stored_take_length hok hread⟩
    else .error (.status noData)
  else .error (.status ioError)

/-- `sacd_area_toc_read`; `none` leaves the context uninitialized, with the value of
success. -/
def sacdAreaTocRead (src : TocSource) (convert : Convert)
    (tocCopyIndex tocArea1Start tocArea2Start : UInt32) (tocAreaLength : UInt16)
    (areaType : AreaType) : Parse (Option Toc) := do
  let b ← fetchToc src (if tocCopyIndex = 2 then tocArea2Start else tocArea1Start) tocAreaLength
  if tocAreaLength = 0 then .ok none
  else
    let toc ← decode convert b areaType
    .ok (some toc)

/-! ## Sectors inside the buffer -/

section Sectors

/-- Blocks of one length. -/
theorem flatten_length_of_forall {sectors : List Bytes} {n : Nat}
    (h : ∀ s ∈ sectors, s.length = n) : sectors.flatten.length = sectors.length * n := by
  induction sectors with
  | nil => simp
  | cons s sectors ih =>
    rw [List.flatten_cons, List.length_append, h s List.mem_cons_self,
      ih fun s' hs' => h s' (List.mem_cons_of_mem s hs'), List.length_cons, Nat.add_mul,
      Nat.one_mul, Nat.add_comm]

variable (b : TocSectors)

/-- The payload of sector `s`. -/
def TocSectors.sector (s : Nat) : Bytes := slice b.buffer (s * b.sectorSize + b.headerSize) lsnSize

/-- The payloads of the `n` sectors from `s` on. -/
def TocSectors.sectors (s n : Nat) : Bytes :=
  ((List.range n).map fun i => b.sector (s + i)).flatten

/-- A payload lies in the buffer exactly where the TOC has its sector. -/
theorem sector_inside (s : Nat) :
    s * b.sectorSize + b.headerSize + lsnSize ≤ b.buffer.length ↔ s < b.tocAreaLength.toNat := by
  have hfits := b.fits
  have hpos : lsnSize = 2048 := rfl
  rw [b.buffer_length]
  constructor
  · intro h
    by_contra hge
    have hle := Nat.mul_le_mul_right b.sectorSize (Nat.not_lt.mp hge)
    omega
  · intro h
    have hle := Nat.mul_le_mul_right b.sectorSize (Nat.succ_le_of_lt h)
    rw [Nat.succ_mul] at hle
    omega

theorem read_of_lt {s : Nat} (h : s < b.tocAreaLength.toNat) : b.read s = .ok (b.sector s) :=
  readBytes_of_le _ ((sector_inside b s).mpr h)

theorem read_eq_ok {s : Nat} {bytes : Bytes} :
    b.read s = .ok bytes ↔ s < b.tocAreaLength.toNat ∧ bytes = b.sector s := by
  rw [TocSectors.read, readBytes_eq_ok, sector_inside]
  rfl

theorem succeeds_read {s : Nat} : Succeeds (b.read s) ↔ s < b.tocAreaLength.toNat := by
  rw [TocSectors.read, succeeds_readBytes, sector_inside]

theorem sector_length {s : Nat} (h : s < b.tocAreaLength.toNat) :
    (b.sector s).length = lsnSize := slice_length_of_le ((sector_inside b s).mpr h)

theorem sectors_length {s n : Nat} (h : s + n ≤ b.tocAreaLength.toNat) :
    (b.sectors s n).length = n * lsnSize := by
  rw [TocSectors.sectors, flatten_length_of_forall (n := lsnSize), List.length_map,
    List.length_range]
  intro x hx
  obtain ⟨i, hi, rfl⟩ := List.mem_map.mp hx
  have hlt := List.mem_range.mp hi
  exact sector_length b (by omega)

theorem sectors_one (s : Nat) : b.sectors s 1 = b.sector s := List.append_nil _

theorem sectors_add (s m n : Nat) : b.sectors s (m + n) = b.sectors s m ++ b.sectors (s + m) n := by
  rw [TocSectors.sectors, List.range_add, List.map_append, List.flatten_append, List.map_map]
  simp only [Function.comp_def, ← Nat.add_assoc]
  rfl

theorem readSectors_of_le {s n : Nat} (h : s + n ≤ b.tocAreaLength.toNat) :
    readSectors b s n = .ok (b.sectors s n) := by
  have hcollect : collect (fun i => b.read (s + i)) (List.range n) =
      .ok ((List.range n).map fun i => b.sector (s + i)) := by
    apply collect_ok
    intro i hi
    have hlt := List.mem_range.mp hi
    exact read_of_lt b (by omega)
  rw [readSectors, bind_of_ok hcollect]
  rfl

theorem succeeds_readSectors {s n : Nat} (hn : 0 < n) :
    Succeeds (readSectors b s n) ↔ s + n ≤ b.tocAreaLength.toNat := by
  constructor
  · intro h
    obtain ⟨sectors, hcollect, -⟩ := succeeds_bind.mp h
    have hlast := (succeeds_collect _).mp ⟨sectors, hcollect⟩ (n - 1)
      (List.mem_range.mpr (by omega))
    rw [succeeds_read] at hlast
    omega
  · intro h
    exact ⟨_, readSectors_of_le b h⟩

/-- A list whose pointer was checked is filled in. -/
theorem fill_eq {s : Nat} (limit : Nat) (h : s < b.tocAreaLength.toNat) :
    fill b s limit = .ok (b.sectors s (min (b.tocAreaLength.toNat - s) limit)) :=
  readSectors_of_le b (by omega)

theorem filled_length {s : Nat} (limit : Nat) (h : s < b.tocAreaLength.toNat) :
    (b.sectors s (min (b.tocAreaLength.toNat - s) limit)).length =
      min (b.tocAreaLength.toNat - s) limit * lsnSize := sectors_length b (by omega)

end Sectors

/-! ## What a read decodes -/

section Decoded

variable {convert : Convert} {b : TocSectors} {areaType : AreaType} {toc : Toc}

/-- The context `toc` is what `sacd_area_toc_read` makes of the sectors `b`. -/
def ReadFrom (convert : Convert) (b : TocSectors) (areaType : AreaType) (toc : Toc) : Prop :=
  ∃ (src : TocSource) (tocCopyIndex tocArea1Start tocArea2Start : UInt32)
    (tocAreaLength : UInt16),
    fetchToc src (if tocCopyIndex = 2 then tocArea2Start else tocArea1Start) tocAreaLength =
      .ok b ∧
    sacdAreaTocRead src convert tocCopyIndex tocArea1Start tocArea2Start tocAreaLength areaType =
      .ok (some toc)

theorem ReadFrom.decode (h : ReadFrom convert b areaType toc) :
    decode convert b areaType = .ok toc := by
  obtain ⟨src, copy, start₁, start₂, n, hfetch, hread⟩ := h
  rw [sacdAreaTocRead, bind_of_ok hfetch] at hread
  split at hread
  · cases hread
  · obtain ⟨toc', hdecode, htoc⟩ := bind_eq_ok.mp hread
    cases htoc
    exact hdecode

/-- What the checks let pass, and what each part is decoded from. -/
structure Decodes (convert : Convert) (b : TocSectors) (areaType : AreaType) (toc : Toc)
    (lists : TrackLists) : Prop where
  first : ∃ first, b.read 0 = .ok first ∧ toc.data = areaData first ∧
    signaturesValid b first areaType = .ok true
  pointers : toc.data.PointersValid b.tocAreaLength.toNat
  channels : toc.data.ChannelCountValid areaType
  areaText : readAreaTexts convert b toc.data = .ok toc.areaText
  required : readLists b = .ok lists
  tracks : readTracks convert b toc.data lists toc.data.trackCount 0 ⟨0, []⟩ = .ok toc.trackInfo
  access : readAccessList b toc.data = .ok toc.frameInfo
  format : frameFormat toc.data.frameFormat ≠ .unknown
  fresh : toc = .accepted toc.data toc.areaText toc.trackInfo toc.frameInfo

theorem decode_eq_ok (h : decode convert b areaType = .ok toc) :
    ∃ lists, Decodes convert b areaType toc lists := by
  obtain ⟨first, hfirst, hrest⟩ := bind_eq_ok.mp h
  split at hrest
  · cases hrest
  · next hpointers =>
    obtain ⟨valid, hvalid, hrest⟩ := bind_eq_ok.mp hrest
    split at hrest
    · cases hrest
    · next hsigned =>
      split at hrest
      · cases hrest
      · next hchannels =>
        obtain ⟨areaText, hareaText, hrest⟩ := bind_eq_ok.mp hrest
        obtain ⟨lists, hlists, hrest⟩ := bind_eq_ok.mp hrest
        obtain ⟨trackInfo, htracks, hrest⟩ := bind_eq_ok.mp hrest
        obtain ⟨frameInfo, haccess, hrest⟩ := bind_eq_ok.mp hrest
        split at hrest
        · cases hrest
        · next hformat =>
          cases hrest
          rw [Bool.not_eq_false] at hsigned
          rw [hsigned] at hvalid
          exact ⟨lists, ⟨first, hfirst, rfl, hvalid⟩, not_not.mp hpointers, not_not.mp hchannels,
            hareaText, hlists, htracks, haccess, hformat, rfl⟩

theorem Decodes.decode {lists : TrackLists} (h : Decodes convert b areaType toc lists) :
    decode convert b areaType = .ok toc := by
  obtain ⟨first, hfirst, hdata, hsigned⟩ := h.first
  have hpointers := h.pointers
  have hchannels := h.channels
  have hformat := h.format
  have hlists : decodeLists convert b toc.data = .ok toc := by
    rw [decodeLists, bind_of_ok h.areaText, bind_of_ok h.required, bind_of_ok h.tracks,
      bind_of_ok h.access, if_neg hformat, ← h.fresh]
  rw [hdata] at hpointers hchannels hlists
  rw [Area.decode, bind_of_ok hfirst, if_neg (not_not.mpr hpointers), bind_of_ok hsigned,
    if_neg (fun hfalse => Bool.noConfusion hfalse), if_neg (not_not.mpr hchannels), hlists]

theorem signed_of_read {s : Nat} {sector sign : Bytes} (h : b.read s = .ok sector)
    (hsign : signature sector = sign) : signed b s sign = .ok true := by
  rw [signed, bind_of_ok h, decide_eq_true hsign]

theorem both_true {x y : Parse Bool} (hx : x = .ok true) (hy : y = .ok true) :
    both x y = .ok true := by
  rw [both, bind_of_ok hx, if_pos rfl, hy]

theorem signaturesValid_true {first : Bytes}
    (hfirst : signature first =
      if areaType = .twoChannel then area2chTocSign else areaMchTocSign)
    (hlist₁ : signed b 1 trackList1Sign = .ok true)
    (hlist₂ : signed b 2 trackList2Sign = .ok true)
    (hisrc : signed b 3 isrcGenreSign = .ok true)
    (haccess : signedIfPresent b (areaData first).accessListPtr accessListSign = .ok true)
    (htext : signedIfPresent b (areaData first).trackTextPtr trackTextSign = .ok true)
    (hindex : signedIfPresent b (areaData first).indexListPtr indexListSign = .ok true) :
    signaturesValid b first areaType = .ok true := by
  have hrequired := both_true hlist₁ (both_true hlist₂ hisrc)
  have hoptional := both_true haccess (both_true htext hindex)
  rw [signaturesValid, bind_of_ok hrequired, bind_of_ok hoptional, decide_eq_true hfirst]
  rfl

/-- The access list of a scratch buffer that holds all its entries. -/
theorem readAccessList_of_room {data : AreaData} {scratch : Bytes}
    (hptr : data.accessListPtr ≠ 0) (hscratch : readSectors b data.accessListPtr 32 = .ok scratch)
    (hroom : 16 + 5 * be scratch 8 2 ≤ scratch.length) :
    readAccessList b data = .ok (accessList scratch) := by
  have hentries : collect (readAccessEntry scratch) (List.range (be scratch 8 2)) =
      .ok ((List.range (be scratch 8 2)).map fun i => slice scratch (16 + 5 * i) 5) := by
    apply collect_ok
    intro i hi
    have hlt := List.mem_range.mp hi
    exact readBytes_of_le _ (by omega)
  rw [readAccessList, if_neg hptr, bind_of_ok hscratch, bind_of_ok hentries]
  rfl

/-! ## The tracks of a read -/

/-- Every track of the loop is read in its turn, from what the turn before left. -/
theorem readTracks_eq_ok {data : AreaData} {lists : TrackLists} (n track : Nat) (running : Running)
    {infos : List TrackInfo} (h : readTracks convert b data lists n track running = .ok infos) :
    infos.length = n ∧ ∀ i info, infos[i]? = some info → ∃ running running',
      readTrack convert b data lists (track + i) running = .ok (info, running') := by
  induction n generalizing track running infos with
  | zero =>
    cases h
    exact ⟨rfl, fun i info hi => nomatch hi⟩
  | succ n ih =>
    obtain ⟨⟨first, running'⟩, hfirst, hrest⟩ := bind_eq_ok.mp h
    obtain ⟨rest, hread, hinfos⟩ := bind_eq_ok.mp hrest
    cases hinfos
    obtain ⟨hlen, hturns⟩ := ih (track + 1) running' hread
    refine ⟨by rw [List.length_cons, hlen], ?_⟩
    intro i info hi
    cases i with
    | zero =>
      cases hi
      exact ⟨running, running', hfirst⟩
    | succ i =>
      rw [Nat.add_comm i, ← Nat.add_assoc]
      exact hturns i info hi

/-- What one turn reads of its track. -/
theorem readTrack_eq_ok {data : AreaData} {lists : TrackLists} {track : Nat}
    {running running' : Running} {info : TrackInfo}
    (h : readTrack convert b data lists track running = .ok (info, running')) :
    ∃ extra texts scratch scratch',
      readIndexes b data track running.scratch = .ok (extra, scratch) ∧
      readTrackText convert b data track scratch = .ok (texts, scratch') ∧
      info.trackLength = trackLength lists track ∧
      info.indexStart = running.startFrame :: trackStart lists track :: extra ∧
      info.indexCount = UInt8.ofNat (extra.length + 2) ∧
      info.trackText = texts ∧ info.trackTextItemCount = textItemCount texts := by
  obtain ⟨isrcGenreList2, -, hrest⟩ := bind_eq_ok.mp h
  obtain ⟨⟨extra, scratch⟩, hindexes, hrest⟩ := bind_eq_ok.mp hrest
  obtain ⟨⟨texts, scratch'⟩, htexts, hinfo⟩ := bind_eq_ok.mp hrest
  cases hinfo
  exact ⟨extra, texts, scratch, scratch', hindexes, htexts, rfl, rfl, rfl, rfl, rfl⟩

/-- Every track of an accepted TOC is read from its sectors. -/
theorem Decodes.track {lists : TrackLists} (h : Decodes convert b areaType toc lists) {i : Nat}
    {info : TrackInfo} (hi : toc.trackInfo[i]? = some info) : ∃ running running',
      readTrack convert b toc.data lists i running = .ok (info, running') := by
  have hturn := (readTracks_eq_ok _ _ _ h.tracks).2 i info hi
  rwa [Nat.zero_add] at hturn

/-! ## Files of sectors -/

/-- The sectors of a file. -/
def fileSource (file : Bytes) (sectorSize headerSize : Nat)
    (fits : headerSize + lsnSize ≤ sectorSize) : TocSource :=
  ⟨sectorSize, headerSize, fits, fileInput file sectorSize⟩

/-- A file of so many sectors is read whole. -/
theorem fileReadSectors_whole {file : Bytes} {sectorSize : Nat} {count : UInt16}
    (hsize : 0 < sectorSize) (hpos : count ≠ 0) (hlen : file.length = count.toNat * sectorSize) :
    fileReadSectors file sectorSize 0 count.toUInt32 = ⟨true, file, count.toUInt32⟩ := by
  have hcount : 0 < count.toNat :=
    Nat.pos_of_ne_zero fun hzero => hpos (UInt16.toNat_inj.mp hzero)
  have hne : count.toUInt32 ≠ 0 := by
    intro hzero
    have := congrArg UInt32.toNat hzero
    rw [UInt16.toNat_toUInt32, UInt32.toNat_zero] at this
    omega
  have hin : ¬ file.length ≤ (0 : UInt32).toNat * sectorSize := by
    rw [hlen, UInt32.toNat_zero, Nat.zero_mul]
    exact Nat.not_le.mpr (Nat.mul_pos hcount hsize)
  have hwhole : (file.drop ((0 : UInt32).toNat * sectorSize)).take
      (count.toUInt32.toNat * sectorSize) = file := by
    rw [UInt32.toNat_zero, Nat.zero_mul, List.drop_zero, UInt16.toNat_toUInt32, ← hlen,
      List.take_length]
  have hread : UInt32.ofNat (file.length / sectorSize) = count.toUInt32 := by
    rw [hlen, Nat.mul_div_cancel _ hsize, ← UInt16.toNat_toUInt32 count, UInt32.ofNat_toNat]
  simp only [fileReadSectors, if_neg hne, if_neg hin, hwhole, hread]

theorem fetchToc_eq {src : TocSource} {lsn : UInt32} {count : UInt16} {stored : Bytes}
    (halloc : src.sectorSize * count.toNat ≤ maxAllocSize)
    (hread : src.input.readSectors lsn count.toUInt32 = ⟨true, stored, count.toUInt32⟩)
    (hlen : stored.length = count.toNat * src.sectorSize) :
    fetchToc src lsn count =
      .ok ⟨src.sectorSize, src.headerSize, src.fits, count, stored, hlen⟩ := by
  have hok : (src.input.readSectors lsn count.toUInt32).ok = true := by rw [hread]
  have hcount : (src.input.readSectors lsn count.toUInt32).sectorsRead = count.toUInt32 := by
    rw [hread]
  have hstored : (src.input.readSectors lsn count.toUInt32).stored.take
      (count.toNat * src.sectorSize) = stored := by
    rw [hread, ← hlen, List.take_length]
  rw [fetchToc, if_neg (Nat.not_lt.mpr halloc), dif_pos hok, dif_pos hcount, Except.ok.injEq,
    TocSectors.mk.injEq]
  exact ⟨rfl, rfl, rfl, hstored⟩

theorem fetchToc_file (b : TocSectors) (hpos : b.tocAreaLength ≠ 0)
    (halloc : b.sectorSize * b.tocAreaLength.toNat ≤ maxAllocSize) :
    fetchToc (fileSource b.buffer b.sectorSize b.headerSize b.fits) 0 b.tocAreaLength =
      .ok b := by
  have hfits := b.fits
  have hsize : 0 < b.sectorSize := by
    have : lsnSize = 2048 := rfl
    omega
  exact fetchToc_eq halloc (fileReadSectors_whole hsize hpos b.buffer_length) b.buffer_length

/-- Sectors that decode are those of a file. -/
theorem readFrom_of_decode (hpos : b.tocAreaLength ≠ 0)
    (halloc : b.sectorSize * b.tocAreaLength.toNat ≤ maxAllocSize)
    (h : Area.decode convert b areaType = .ok toc) : ReadFrom convert b areaType toc := by
  have hfetch := fetchToc_file b hpos halloc
  refine ⟨_, 1, 0, 0, b.tocAreaLength, hfetch, ?_⟩
  rw [sacdAreaTocRead]
  have hstart : (if (1 : UInt32) = 2 then (0 : UInt32) else 0) = 0 := rfl
  rw [hstart, bind_of_ok hfetch, if_neg hpos, bind_of_ok h]

end Decoded

/-! ## TOCs of bare sectors -/

section Bare

/-- A range of whole blocks. -/
theorem slice_flatten {sectors : List Bytes} {n s : Nat} (h : ∀ s ∈ sectors, s.length = n)
    (hs : s < sectors.length) : slice sectors.flatten (s * n) n = sectors[s] := by
  induction sectors generalizing s with
  | nil => exact absurd hs (Nat.not_lt_zero s)
  | cons x sectors ih =>
    have hx := h x List.mem_cons_self
    cases s with
    | zero =>
      rw [List.flatten_cons, Nat.zero_mul, slice_append_left (by omega), slice, List.drop_zero,
        List.take_of_length_le (by omega)]
      rfl
    | succ s =>
      rw [List.flatten_cons, Nat.add_mul, Nat.one_mul, Nat.add_comm, ← hx, slice_append_right, hx,
        ih (fun y hy => h y (List.mem_cons_of_mem x hy)) (Nat.lt_of_succ_lt_succ hs)]
      rfl

/-- A sector that is zero behind its head. -/
def padded (head : Bytes) : Bytes := head ++ List.replicate (lsnSize - head.length) 0

theorem padded_length {head : Bytes} (h : head.length ≤ lsnSize) :
    (padded head).length = lsnSize := by
  rw [padded, List.length_append, List.length_replicate]
  omega

/-- An area TOC of sectors of 2048 bytes without headers, each given by its head. -/
structure BareToc where
  heads : List Bytes
  length_lt : heads.length < 65536
  head_length : ∀ head ∈ heads, head.length ≤ lsnSize

namespace BareToc

variable (d : BareToc)

theorem sector_length : ∀ s ∈ d.heads.map padded, s.length = lsnSize := by
  intro s hs
  obtain ⟨head, hhead, rfl⟩ := List.mem_map.mp hs
  exact padded_length (d.head_length head hhead)

theorem flatten_length : (d.heads.map padded).flatten.length = d.heads.length * lsnSize := by
  rw [flatten_length_of_forall d.sector_length, List.length_map]

theorem bare_fits : 0 + lsnSize ≤ lsnSize := by decide

theorem buffer_length : (d.heads.map padded).flatten.length =
    (UInt16.ofNat d.heads.length).toNat * lsnSize := by
  rw [d.flatten_length, UInt16.toNat_ofNat', Nat.mod_eq_of_lt d.length_lt]

def toc : TocSectors :=
  ⟨lsnSize, 0, bare_fits, UInt16.ofNat d.heads.length, (d.heads.map padded).flatten,
    d.buffer_length⟩

theorem tocAreaLength : d.toc.tocAreaLength.toNat = d.heads.length := by
  rw [toc, UInt16.toNat_ofNat', Nat.mod_eq_of_lt d.length_lt]

theorem read {s : Nat} {head : Bytes} (h : d.heads[s]? = some head) :
    d.toc.read s = .ok (padded head) := by
  obtain ⟨hlt, hhead⟩ := List.getElem?_eq_some_iff.mp h
  have hle : s * lsnSize + lsnSize ≤ (d.heads.map padded).flatten.length := by
    rw [d.flatten_length, ← Nat.succ_mul]
    exact Nat.mul_le_mul_right _ hlt
  show readBytes Stop.outside (d.heads.map padded).flatten (s * lsnSize + 0) lsnSize = _
  rw [Nat.add_zero, readBytes_of_le _ hle,
    slice_flatten d.sector_length (by rwa [List.length_map]), List.getElem_map, hhead]

theorem sector {s : Nat} {head : Bytes} (h : d.heads[s]? = some head) :
    d.toc.sector s = padded head := ((read_eq_ok d.toc).mp (d.read h)).2.symm

theorem readSectors {s n : Nat} (h : s + n ≤ d.heads.length) :
    Area.readSectors d.toc s n = .ok (((d.heads.drop s).take n).map padded).flatten := by
  have hcollect : collect (fun i => d.toc.read (s + i)) (List.range n) =
      .ok ((List.range n).map fun i => padded (d.heads.getD (s + i) [])) := by
    apply collect_ok
    intro i hi
    have hlt : s + i < d.heads.length := by
      have := List.mem_range.mp hi
      omega
    rw [d.read (List.getElem?_eq_getElem hlt), List.getD_eq_getElem _ _ hlt]
  have hlist : (List.range n).map (fun i => padded (d.heads.getD (s + i) [])) =
      ((d.heads.drop s).take n).map padded := by
    apply List.ext_getElem
    · rw [List.length_map, List.length_range, List.length_map, List.length_take, List.length_drop]
      omega
    · intro i h₁ h₂
      rw [List.length_map, List.length_range] at h₁
      rw [List.getElem_map, List.getElem_range, List.getElem_map, List.getElem_take,
        List.getElem_drop, List.getD_eq_getElem _ _ (by omega)]
  rw [Area.readSectors, bind_of_ok hcollect, hlist]

theorem signed {s : Nat} {head sign : Bytes} (h : d.heads[s]? = some head)
    (hsign : signature (padded head) = sign) : signed d.toc s sign = .ok true :=
  signed_of_read (d.read h) hsign

variable {d} {convert : Convert} {areaType : AreaType} {toc : Toc} {lists : TrackLists}

/-- A decode of the sectors whose lists are the first four. -/
theorem decodes {first list₁ list₂ isrc : Bytes} {rest : List Bytes}
    {areaText : List (List (Option Bytes))} {trackInfo : List TrackInfo} {frameInfo : AccessList}
    (hheads : d.heads = first :: list₁ :: list₂ :: isrc :: rest)
    (hsigned : signaturesValid d.toc (padded first) areaType = .ok true)
    (hpointers : (areaData (padded first)).PointersValid d.heads.length)
    (hchannels : (areaData (padded first)).ChannelCountValid areaType)
    (hformat : frameFormat (areaData (padded first)).frameFormat ≠ .unknown)
    (hareaText : readAreaTexts convert d.toc (areaData (padded first)) = .ok areaText)
    (htracks : readTracks convert d.toc (areaData (padded first))
      ⟨padded list₁, padded list₂, padded isrc⟩ (areaData (padded first)).trackCount 0 ⟨0, []⟩ =
        .ok trackInfo)
    (haccess : readAccessList d.toc (areaData (padded first)) = .ok frameInfo) :
    Decodes convert d.toc areaType
      (.accepted (areaData (padded first)) areaText trackInfo frameInfo)
      ⟨padded list₁, padded list₂, padded isrc⟩ where
  first := ⟨padded first, d.read (by rw [hheads]; rfl), rfl, hsigned⟩
  pointers := by rwa [d.tocAreaLength]
  channels := hchannels
  areaText := hareaText
  required := by
    rw [readLists, bind_of_ok (d.read (s := 1) (by rw [hheads]; rfl)),
      bind_of_ok (d.read (s := 2) (by rw [hheads]; rfl)),
      bind_of_ok (d.read (s := 3) (by rw [hheads]; rfl))]
  tracks := htracks
  access := haccess
  format := hformat
  fresh := rfl

theorem readFrom (h : Decodes convert d.toc areaType toc lists) :
    ReadFrom convert d.toc areaType toc := by
  obtain ⟨first, hfirst, -⟩ := h.first
  have hread := ((readBytes_eq_ok _).mp hfirst).1
  have hlen := d.toc.buffer_length
  apply readFrom_of_decode _ _ h.decode
  · intro hzero
    rw [hzero, UInt16.toNat_zero, Nat.zero_mul] at hlen
    have : lsnSize = 2048 := rfl
    omega
  · have hlt := d.length_lt
    rw [d.tocAreaLength]
    show 2048 * _ ≤ 2147483647
    omega

end BareToc

/-- The first sector of a two-channel area of DST frames, of less than a second. -/
def areaHead (playTime trackCount : UInt8) (channels : List (UInt8 × UInt8))
    (trackTextPtr indexListPtr accessListPtr : UInt8) : Bytes :=
  area2chTocSign ++ [2, 0] ++ List.replicate 22 0 ++ [2] ++ List.replicate 33 0 ++ [playTime] ++
    List.replicate 2 0 ++ [trackCount] ++ List.replicate 10 0 ++ [UInt8.ofNat channels.length] ++
    List.replicate 7 0 ++ channels.flatMap (fun info => [0x65, info.1, info.2, 0]) ++
    List.replicate (40 - 4 * channels.length) 0 ++
    [0, trackTextPtr, 0, indexListPtr, 0, accessListPtr]

end Bare

end DsdNexus.Sacd.Area
