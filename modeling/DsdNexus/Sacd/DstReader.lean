import DsdNexus.Sacd.AudioSector

/-! # The DST frame reader

`dst_sector_seek` finds the sector a frame starts in, with the access list of
the area to narrow the search; `dst_reader_read_frame` fetches the sectors from
there and copies the packets of the frame out of them. After a frame the reader
remembers where the next one starts and skips the search when it is asked for.
-/

namespace DsdNexus.Sacd

/-! ## Status values

The enumerators behind `SACD_DST_READER_UNINITIALIZED = -1` count on from it, so
that an I/O error has the value of success. -/

def readerOk : Int := 0
def readerUninitialized : Int := -1
def readerIoError : Int := 0
def readerAccessListInvalid : Int := 2
def readerFrameNotFound : Int := 5

/-- `MAX_DST_SECTORS`. -/
def maxDstSectors : Nat := 16

/-! ## The access list -/

/-- `area_toc_frame_info_t`; no list where the disc has none. -/
structure AccessList where
  stepSize : UInt8
  numEntries : UInt16
  frameStart : Option (List UInt32)
  accessMargin : Option (List UInt16)
  deriving DecidableEq, Repr

/-- The base of the frame reader and what it uses of the area. -/
structure FrameReader where
  sectorSize : Nat
  headerSize : Nat
  size_ok : headerSize + lsnSize ≤ sectorSize
  input : Input sectorSize
  startSector : UInt32
  endSector : UInt32
  accessList : AccessList
  totalAreaPlayTime : UInt32

/-- The search starts at the interpolated position less the margin, never before
the entry. -/
def interpolatedStart (entryLsn estimatedOffset : UInt32) (accessMargin : UInt16) : UInt32 :=
  let interpolated := entryLsn + estimatedOffset
  let fromLsn := if accessMargin.toUInt32 < interpolated then interpolated - accessMargin.toUInt32
    else entryLsn
  if fromLsn < entryLsn then entryLsn else fromLsn

/-- `sacd_area_toc_get_access_list_range`, in the arithmetic of `uint32_t`. -/
def accessListRange (r : FrameReader) (frame : UInt32) : UInt32 × UInt32 :=
  let list := r.accessList
  match list.frameStart with
  | none => (r.startSector, r.endSector)
  | some frameStart =>
    if list.stepSize = 0 ∨ list.numEntries = 0 then (r.startSector, r.endSector)
    else
      let stepSize : UInt32 := list.stepSize.toUInt32
      let numEntries : UInt32 := list.numEntries.toUInt32
      let accessIndex := if numEntries ≤ frame / stepSize then numEntries - 1 else frame / stepSize
      let entryLsn := frameStart.getD accessIndex.toNat 0
      let accessMargin := match list.accessMargin with
        | some margins => margins.getD accessIndex.toNat 0
        | none => 0
      let range : UInt32 × UInt32 :=
        if accessIndex + 1 < numEntries then
          let nextEntryLsn := frameStart.getD (accessIndex + 1).toNat 0
          let intervalSectors := nextEntryLsn - entryLsn
          let estimatedOffset := frame % stepSize * intervalSectors / stepSize
          (interpolatedStart entryLsn estimatedOffset accessMargin, nextEntryLsn)
        else
          let remainingFrames := r.totalAreaPlayTime - accessIndex * stepSize
          if 0 < remainingFrames then
            let remainingSectors := r.endSector - entryLsn
            let estimatedOffset := frame % stepSize * remainingSectors / remainingFrames
            (interpolatedStart entryLsn estimatedOffset accessMargin, r.endSector)
          else (entryLsn, r.endSector)
      (if range.1 < r.startSector then r.startSector else range.1,
        if r.endSector < range.2 then r.endSector else range.2)

/-! ## Fetching sectors -/

/-- What a fetch leaves in the sector buffer; `none` is an I/O error. -/
structure Fetched where
  sectors : Option Nat
  buffer : Bytes

/-- `memcpy` to the front of the buffer. -/
def store (buffer bytes : Bytes) : Bytes := bytes ++ buffer.drop bytes.length

/-- The sectors to decrypt are those the area holds. -/
def decrypts (r : FrameReader) (lsn sectorsRead : UInt32) : Bool :=
  r.startSector ≤ lsn && lsn + sectorsRead - 1 ≤ r.endSector

/-- Decrypt in place the sectors read, where there is an operation for it. -/
def decryptSectors (r : FrameReader) (buffer : Bytes) (lsn sectorsRead : UInt32) : Option Bytes :=
  match r.input.decrypt with
  | none => some buffer
  | some decrypt =>
    if decrypts r lsn sectorsRead then
      (decrypt (buffer.take (sectorsRead.toNat * r.sectorSize))).map (store buffer)
    else some buffer

/-- Read `count` sectors to the front of the buffer and decrypt them. -/
def fetch (r : FrameReader) (buffer : Bytes) (lsn count : UInt32) : Fetched :=
  let read := r.input.readSectors lsn count
  let buffer := store buffer read.stored
  if read.ok then
    match decryptSectors r buffer lsn read.sectorsRead with
    | none => ⟨none, buffer⟩
    | some buffer => ⟨some read.sectorsRead.toNat, buffer⟩
  else ⟨none, buffer⟩

/-- The fetch of `find_dst_frame`: one sector, and nothing but one. -/
def fetchOne (r : FrameReader) (buffer : Bytes) (lsn : UInt32) : Fetched :=
  if (r.input.readSectors lsn 1).sectorsRead = 1 then fetch r buffer lsn 1
  else ⟨none, store buffer (r.input.readSectors lsn 1).stored⟩

/-- The header of sector `i` of the buffer. -/
def sectorHeader (r : FrameReader) (buffer : Bytes) (i : Nat) : Option AudioSector :=
  parseAudioSectorHeader (buffer.drop (i * r.sectorSize + r.headerSize))

/-! ## Finding a frame -/

inductive FrameSearch where
  | passed
  | found (sectorCount : Nat)
  | goOn
  deriving DecidableEq, Repr

/-- The packets of one sector of `find_dst_frame`. -/
def searchPackets (s : AudioSector) (frame : UInt32) : Nat → List PacketInfo → FrameSearch
  | _, [] => .goOn
  | frameInfoIdx, packet :: packets =>
    if packet.startsFrame then
      if frame.toNat < timeToFrame (s.frame frameInfoIdx) then .passed
      else if timeToFrame (s.frame frameInfoIdx) = frame.toNat then
        .found (s.frame frameInfoIdx).sectors
      else searchPackets s frame (frameInfoIdx + 1) packets
    else searchPackets s frame frameInfoIdx packets

structure SeekResult where
  status : Int
  foundLsn : UInt32
  sectorCount : Nat
  buffer : Bytes

/-- The loop of `find_dst_frame` over the `n` sectors from `lsn`. -/
def findDstFrameLoop (r : FrameReader) (frame : UInt32) : Nat → UInt32 → Bytes → SeekResult
  | 0, _, buffer => ⟨readerFrameNotFound, 0, 1, buffer⟩
  | n + 1, lsn, buffer =>
    let fetched := fetchOne r buffer lsn
    match fetched.sectors.bind fun _ => sectorHeader r fetched.buffer 0 with
    | none => ⟨readerIoError, 0, 1, fetched.buffer⟩
    | some s =>
      match searchPackets s frame 0 s.packets with
      | .passed => ⟨readerAccessListInvalid, 0, 1, fetched.buffer⟩
      | .found sectorCount => ⟨readerOk, lsn, sectorCount, fetched.buffer⟩
      | .goOn => findDstFrameLoop r frame n (lsn + 1) fetched.buffer

/-- `find_dst_frame`. -/
def findDstFrame (r : FrameReader) (fromLsn toLsn frame : UInt32) (buffer : Bytes) : SeekResult :=
  findDstFrameLoop r frame (toLsn.toNat + 1 - fromLsn.toNat) fromLsn buffer

/-- `dst_sector_seek`. -/
def dstSectorSeek (r : FrameReader) (frame : UInt32) (buffer : Bytes) : SeekResult :=
  let range := accessListRange r frame
  let result := findDstFrame r range.1 range.2 frame buffer
  if (result.status = readerFrameNotFound ∨ result.status = readerAccessListInvalid) ∧
      range.1 ≠ r.startSector then
    findDstFrame r r.startSector r.endSector frame result.buffer
  else result

/-! ## Reading a frame -/

/-- One `memcpy` out of the sector buffer: `length` bytes at `offset` of the
data of a sector. -/
structure Copy where
  sector : Nat
  offset : Nat
  length : Nat
  deriving DecidableEq, Repr

/-- The variables of the sector loop of `dst_reader_read_frame`. -/
structure Assembly where
  frameStarted : Bool
  frameComplete : Bool
  remainingSectors : Nat
  sectorHadAudio : Bool
  outputLength : Nat
  copies : List Copy
  nextFrameLsn : UInt32
  deriving DecidableEq, Repr

structure Request where
  maxLength : Nat
  frameNum : UInt32
  dataType : Nat
  deriving DecidableEq, Repr

/-- The target frame starts here. -/
def startFrame (q : Request) (s : AudioSector) (frameInfoIdx : Nat) (a : Assembly) : Assembly :=
  if timeToFrame (s.frame frameInfoIdx) = q.frameNum.toNat then
    { a with frameStarted := true, remainingSectors := (s.frame frameInfoIdx).sectors }
  else a

/-- `copy_len`: the packet, or what the output has room for. -/
def copyLength (q : Request) (outputLength packetLength : Nat) : Nat :=
  if q.maxLength < outputLength + packetLength then q.maxLength - outputLength else packetLength

/-- A packet of the requested type is copied as far as the output has room. -/
def copyPacket (q : Request) (packet : PacketInfo) (sector offset : Nat) (a : Assembly) :
    Assembly :=
  if a.frameStarted ∧ packet.dataType = q.dataType then
    let copyLen := copyLength q a.outputLength packet.packetLength
    if 0 < copyLen then
      { a with
        copies := a.copies ++ [⟨sector, offset, copyLen⟩]
        outputLength := a.outputLength + copyLen
        sectorHadAudio := true }
    else a
  else a

/-- The packets of one sector; `offset` is where the data of the next one begins. -/
def readPackets (q : Request) (foundLsn : UInt32) (s : AudioSector) (sector : Nat) :
    Nat → Nat → List PacketInfo → Assembly → Assembly
  | _, _, [], a => a
  | frameInfoIdx, offset, packet :: packets, a =>
    if packet.startsFrame then
      if a.frameStarted then
        { a with
          nextFrameLsn := foundLsn + UInt32.ofNat sector
          frameComplete := true }
      else
        readPackets q foundLsn s sector (frameInfoIdx + 1) (offset + packet.packetLength) packets
          (copyPacket q packet sector offset (startFrame q s frameInfoIdx a))
    else
      readPackets q foundLsn s sector frameInfoIdx (offset + packet.packetLength) packets
        (copyPacket q packet sector offset a)

/-- After each sector with audio one sector less of a DST frame remains. -/
def countSector (foundLsn : UInt32) (s : AudioSector) (sector : Nat) (a : Assembly) : Assembly :=
  if ¬ a.frameComplete ∧ s.dstCoded ∧ a.frameStarted ∧ a.sectorHadAudio then
    if a.remainingSectors - 1 = 0 then
      { a with
        remainingSectors := a.remainingSectors - 1
        nextFrameLsn := foundLsn + UInt32.ofNat sector + 1
        frameComplete := true }
    else { a with remainingSectors := a.remainingSectors - 1 }
  else a

/-- One turn of the sector loop. -/
def readSector (q : Request) (foundLsn : UInt32) (s : AudioSector) (sector : Nat) (a : Assembly) :
    Assembly :=
  countSector foundLsn s sector
    (readPackets q foundLsn s sector 0 s.dataOffset s.packets { a with sectorHadAudio := false })

/-- The sector loop over `n` sectors from `sector` on; `none` where a header does
not parse. -/
def sectorLoop (q : Request) (foundLsn : UInt32) (headers : Nat → Option AudioSector) :
    Nat → Nat → Assembly → Option Assembly
  | 0, _, a => some a
  | n + 1, sector, a =>
    if a.frameComplete then some a
    else match headers sector with
      | none => none
      | some s => sectorLoop q foundLsn headers n (sector + 1) (readSector q foundLsn s sector a)

/-- `sacd_frame_reader_dst_t`. -/
structure DstReader where
  sectorBuffer : Bytes
  cachedFrameNum : UInt32
  cachedFrameLsn : UInt32
  positionValid : Bool
  nextFrameKnown : Bool
  deriving DecidableEq, Repr

/-- `dst_reader_init`. -/
def dstReaderInit (r : FrameReader) : DstReader :=
  { sectorBuffer := List.replicate (maxDstSectors * r.sectorSize) 0
    cachedFrameNum := 0
    cachedFrameLsn := 0
    positionValid := false
    nextFrameKnown := false }

/-- The status, the length and the bytes a call returns. -/
structure FrameRead where
  status : Int
  length : Nat
  data : Bytes
  deriving DecidableEq, Repr

def emptyRead (status : Int) : FrameRead := ⟨status, 0, []⟩

/-- The bytes a copy takes from the buffer. -/
def Copy.bytes (r : FrameReader) (buffer : Bytes) (c : Copy) : Bytes :=
  (buffer.drop (c.sector * r.sectorSize + r.headerSize + c.offset)).take c.length

/-- A count outside `1 .. MAX_DST_SECTORS` is replaced by the maximum. -/
def validSectorCount (n : Nat) : Nat := if n = 0 ∨ maxDstSectors < n then maxDstSectors else n

def Assembly.start (remaining : Nat) : Assembly := ⟨false, false, remaining, false, 0, [], 0⟩

/-- From the fetch on, `dst_reader_read_frame` is the same for both kinds of seek. -/
def readFrameAt (r : FrameReader) (d : DstReader) (q : Request) (foundLsn : UInt32)
    (sectorCount : Nat) : FrameRead × DstReader :=
  let fetched := fetch r d.sectorBuffer foundLsn (UInt32.ofNat sectorCount)
  let failed := { d with sectorBuffer := fetched.buffer, positionValid := false }
  match fetched.sectors with
  | none => (emptyRead readerIoError, failed)
  | some n =>
    match sectorLoop q foundLsn (sectorHeader r fetched.buffer) n 0 (.start sectorCount) with
    | none => (emptyRead readerIoError, failed)
    | some a =>
      let known := decide (0 < a.nextFrameLsn ∧ foundLsn < a.nextFrameLsn)
      (⟨readerOk, a.outputLength, a.copies.flatMap (Copy.bytes r fetched.buffer)⟩,
        { sectorBuffer := fetched.buffer
          cachedFrameNum := q.frameNum
          cachedFrameLsn := if known then a.nextFrameLsn else foundLsn
          positionValid := true
          nextFrameKnown := known })

/-- The frame is the one after the last, and where it starts is remembered. -/
def DstReader.Sequential (d : DstReader) (q : Request) : Prop :=
  d.positionValid = true ∧ d.nextFrameKnown = true ∧ q.frameNum = d.cachedFrameNum + 1

instance (d : DstReader) (q : Request) : Decidable (d.Sequential q) :=
  inferInstanceAs (Decidable (_ ∧ _))

/-- `dst_reader_read_frame`. -/
def dstReaderReadFrame (r : FrameReader) (d : DstReader) (q : Request) : FrameRead × DstReader :=
  if d.Sequential q then readFrameAt r d q d.cachedFrameLsn maxDstSectors
  else
    let seek := dstSectorSeek r q.frameNum d.sectorBuffer
    if seek.status ≠ readerOk then
      (emptyRead seek.status, { d with sectorBuffer := seek.buffer, positionValid := false })
    else
      readFrameAt r { d with sectorBuffer := seek.buffer } q seek.foundLsn
        (validSectorCount seek.sectorCount)

/-- The results of a history of calls. -/
def readFrames (r : FrameReader) : DstReader → List Request → List FrameRead
  | _, [] => []
  | d, q :: qs => (dstReaderReadFrame r d q).1 :: readFrames r (dstReaderReadFrame r d q).2 qs

end DsdNexus.Sacd
