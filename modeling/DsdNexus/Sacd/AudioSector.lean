import DsdNexus.Util.Reverse

/-! # Audio sectors and the inputs they are read from

The header of an audio sector as `parse_audio_sector_header` reads it, and the
two operations of an input the frame readers use: `read_sectors` and the
optional `decrypt`.
-/

namespace DsdNexus.Sacd

/-- `SACD_LSN_SIZE`. -/
def lsnSize : Nat := 2048

def framesPerSec : Nat := 75

def dataTypeAudio : Nat := 2

/-! ## Sector headers -/

/-- `audio_packet_info_t`. -/
structure PacketInfo where
  frameStart : Bool
  dataType : Nat
  packetLength : Nat
  deriving DecidableEq, Repr

/-- `frame_info_t`, without the channel bits. -/
structure FrameInfo where
  minutes : Nat
  seconds : Nat
  frames : Nat
  sectorCount : Nat
  deriving DecidableEq, Repr

/-- `parsed_audio_sector_t` and the offset of the packet data. -/
structure AudioSector where
  dstCoded : Bool
  packets : List PacketInfo
  frames : List FrameInfo
  dataOffset : Nat
  deriving DecidableEq, Repr

def byteAt (b : Bytes) (i : Nat) : Nat := (b.getD i 0).toNat

/-- The big-endian word of a packet info entry. -/
def packetInfo (raw : Nat) : PacketInfo :=
  { frameStart := decide (raw / 32768 = 1)
    dataType := raw / 2048 % 8
    packetLength := raw % 2048 }

/-- The packet info entry of index `i`. -/
def packetInfoAt (sectorData : Bytes) (i : Nat) : PacketInfo :=
  packetInfo (byteAt sectorData (1 + 2 * i) * 256 + byteAt sectorData (2 + 2 * i))

/-- The frame info at an offset; only a DST sector states the sector count. -/
def frameInfoAt (dstCoded : Bool) (sectorData : Bytes) (entry : Nat) : FrameInfo :=
  { minutes := byteAt sectorData entry
    seconds := byteAt sectorData (entry + 1)
    frames := byteAt sectorData (entry + 2)
    sectorCount := if dstCoded then byteAt sectorData (entry + 3) / 4 % 32 else 1 }

/-- `parse_audio_sector_header`. -/
def parseAudioSectorHeader (sectorData : Bytes) : Option AudioSector :=
  let header := byteAt sectorData 0
  let dstCoded := decide (header % 2 = 1)
  let frameStartCount := header / 4 % 8
  let packetCount := header / 32
  if packetCount = 0 ∨ 7 < packetCount then none
  else
    let frameInfos := 1 + 2 * packetCount
    let frameInfoSize := if dstCoded then 4 else 3
    some
      { dstCoded := dstCoded
        packets := (List.range packetCount).map (packetInfoAt sectorData)
        frames := (List.range frameStartCount).map fun i =>
          frameInfoAt dstCoded sectorData (frameInfos + frameInfoSize * i)
        dataOffset := frameInfos + frameInfoSize * frameStartCount }

/-- The bytes a sector header can take. -/
def maxHeaderSize : Nat := 43

/-- `parsed.frames[i]`; entries behind the frame starts are zero. -/
def AudioSector.frame (s : AudioSector) (i : Nat) : FrameInfo := s.frames.getD i ⟨0, 0, 0, 0⟩

/-- `time_to_frame`. -/
def timeToFrame (time : FrameInfo) : Nat :=
  time.frames + (time.seconds + time.minutes * 60) * framesPerSec

/-- `sector_count`, zero read as one. -/
def FrameInfo.sectors (f : FrameInfo) : Nat := if f.sectorCount = 0 then 1 else f.sectorCount

/-- An audio packet with its frame-start flag set. -/
def PacketInfo.startsFrame (p : PacketInfo) : Bool :=
  p.frameStart && decide (p.dataType = dataTypeAudio)

theorem byteAt_take {b : Bytes} {n i : Nat} (h : i < n) : byteAt (b.take n) i = byteAt b i := by
  simp [byteAt, h]

/-- The header is read from the first bytes of the sector. -/
theorem parseAudioSectorHeader_take (b : Bytes) :
    parseAudioSectorHeader (b.take maxHeaderSize) = parseAudioSectorHeader b := by
  have hbyte : ∀ i, i < 43 → byteAt (b.take maxHeaderSize) i = byteAt b i :=
    fun i hi => byteAt_take hi
  have hpacket : ∀ i, i < 7 → packetInfoAt (b.take maxHeaderSize) i = packetInfoAt b i := by
    intro i hi
    rw [packetInfoAt, packetInfoAt, hbyte _ (by omega), hbyte _ (by omega)]
  have hframe : ∀ dst i, i + 3 < 43 →
      frameInfoAt dst (b.take maxHeaderSize) i = frameInfoAt dst b i := by
    intro dst i hi
    rw [frameInfoAt, frameInfoAt, hbyte _ (by omega), hbyte _ (by omega), hbyte _ (by omega),
      hbyte _ (by omega)]
  unfold parseAudioSectorHeader
  rw [hbyte 0 (by decide)]
  simp only
  split
  · rfl
  · next hcount =>
    have hstarts : byteAt b 0 / 4 % 8 < 8 := Nat.mod_lt _ (by decide)
    have hpackets : (List.range (byteAt b 0 / 32)).map (packetInfoAt (b.take maxHeaderSize)) =
        (List.range (byteAt b 0 / 32)).map (packetInfoAt b) := by
      apply List.map_congr_left
      intro i hi
      exact hpacket i (by have := List.mem_range.mp hi; omega)
    have hframes : ∀ dst, (List.range (byteAt b 0 / 4 % 8)).map (fun i =>
          frameInfoAt dst (b.take maxHeaderSize)
            (1 + 2 * (byteAt b 0 / 32) + (if dst then 4 else 3) * i)) =
        (List.range (byteAt b 0 / 4 % 8)).map (fun i =>
          frameInfoAt dst b (1 + 2 * (byteAt b 0 / 32) + (if dst then 4 else 3) * i)) := by
      intro dst
      apply List.map_congr_left
      intro i hi
      have hlt := List.mem_range.mp hi
      exact hframe dst _ (by cases dst <;> simp <;> omega)
    rw [hpackets, hframes]

theorem parseAudioSectorHeader_congr {b c : Bytes}
    (h : b.take maxHeaderSize = c.take maxHeaderSize) :
    parseAudioSectorHeader b = parseAudioSectorHeader c := by
  rw [← parseAudioSectorHeader_take b, h, parseAudioSectorHeader_take]

/-! ## Inputs -/

/-- What `read_sectors` returns, the bytes it stores and the sectors it counts. -/
structure SectorsRead where
  ok : Bool
  stored : Bytes
  sectorsRead : UInt32
  deriving DecidableEq, Repr

/-- A backend with sectors of `sectorSize` bytes; `decrypt` works in place on
whole sectors and is `none` where the backend has no such operation. -/
structure Input (sectorSize : Nat) where
  readSectors : UInt32 → UInt32 → SectorsRead
  decrypt : Option (Bytes → Option Bytes)
  /-- The sectors counted are stored. -/
  stored_sectors : ∀ lsn count, (readSectors lsn count).ok = true →
    (readSectors lsn count).sectorsRead.toNat * sectorSize ≤ (readSectors lsn count).stored.length
  /-- Decryption keeps the size. -/
  decrypt_length : ∀ f, decrypt = some f → ∀ b c, f b = some c → c.length = b.length

/-- `_file_read_sectors`: the file input clamps at the end of the file and
decrypts nothing. -/
def fileReadSectors (file : Bytes) (sectorSize : Nat) (sectorPos sectorCount : UInt32) :
    SectorsRead :=
  if sectorCount = 0 then ⟨true, [], 0⟩
  else
    let offset := sectorPos.toNat * sectorSize
    let bytesToRead := sectorCount.toNat * sectorSize
    if file.length ≤ offset then ⟨false, [], 0⟩
    else
      let bytes := (file.drop offset).take bytesToRead
      ⟨true, bytes, UInt32.ofNat (bytes.length / sectorSize)⟩

def fileInput (file : Bytes) (sectorSize : Nat) : Input sectorSize where
  readSectors := fileReadSectors file sectorSize
  decrypt := none
  stored_sectors := by
    intro lsn count _
    unfold fileReadSectors
    split
    · simp
    · simp only
      split
      · simp
      · exact Nat.le_trans (Nat.mul_le_mul_right _ (Nat.mod_le _ _)) (Nat.div_mul_le_self _ _)
  decrypt_length := by
    intro f hf
    cases hf

end DsdNexus.Sacd
