import DsdNexus.Lib.Transition
import DsdNexus.Sacd.DsdReader
import DsdNexus.Sacd.PacketCopies
import DsdNexus.Sacd.SoundData

/-! # Room for a frame

A read gives every frame of a channel one byte more than its DSD size. The frame buffers of
the virtual file system have the DSD size for six channels, so that six channels are given
more room than their buffer has.
-/

namespace DsdNexus.Sacd

open Transition

/-! ## Frame readers -/

/-- `SACD_FRAME_SIZE_64` -/
def sacdFrameSize64 : Nat := 4704

def maxChannelCount : Nat := 6

/-- `SACD_MAX_DSD_SIZE`, of the frame buffers of the read loop and the reader thread and of
the pooled buffers. -/
def sacdMaxDsdSize : Nat := sacdFrameSize64 * maxChannelCount

/-- The frame reader of an area; that of a fixed layout with the contents of its sector
buffer. -/
inductive AreaReader where
  | dst (r : FrameReader) (d : DstReader)
  | fixed (fmt : FixedFormat) (r : FrameReader) (sector : Bytes)

/-- The `length` bytes a read returns; what it copies from behind its sector buffer is zero
here. -/
def FrameRead.bytes (x : FrameRead) : Bytes := (x.data ++ List.replicate x.length 0).take x.length

/-- `sacd_frame_reader_read_frame` of audio data -/
def readAreaFrame (length frame : UInt32) : AreaReader → Int × List UInt8 × AreaReader
  | .dst r d =>
    let read := dstReaderReadFrame r d ⟨length.toNat, frame, dataTypeAudio⟩
    (read.1.status, read.1.bytes, .dst r read.2)
  | .fixed fmt r sector =>
    let read := dsdAudioFixedReadFrame fmt r sector frame
    (read.1, read.2, .fixed fmt r sector)

section Calls

variable {μ ι : Type}

/-- The call for one frame, as the read loop and the reader thread make it. -/
def frameCall (ctx : Context μ (AreaToc AreaReader) ι) (frame : UInt32) :
    SoundData × Context μ (AreaToc AreaReader) ι :=
  sacdGetSoundData readAreaFrame ctx frame 1 true

def callStep (ctx : Context μ (AreaToc AreaReader) ι) (frame : UInt32) :
    Option (Context μ (AreaToc AreaReader) ι) := some (frameCall ctx frame).2

/-- The frame a call delivers fits its buffer. -/
def FitsBuffer (ctx : Context μ (AreaToc AreaReader) ι) (frame : UInt32) : Prop :=
  ∀ bytes ∈ (frameCall ctx frame).1.frames, bytes.length ≤ sacdMaxDsdSize

end Calls

/-! ## The audio of a frame on the disc -/

/-- A packet of the type asked for, once the frame has started. -/
def ownBytes (q : Request) (started : Bool) (packet : PacketInfo) : Nat :=
  if started = true ∧ packet.dataType = q.dataType then packet.packetLength else 0

/-- The bytes of the packets of a sector that belong to the frame. -/
def packetBytes (q : Request) (s : AudioSector) : Bool → Nat → List PacketInfo → Nat
  | _, _, [] => 0
  | started, idx, packet :: packets =>
    if packet.startsFrame then
      if started then 0
      else
        let started := decide (timeToFrame (s.frame idx) = q.frameNum.toNat)
        ownBytes q started packet + packetBytes q s started (idx + 1) packets
    else ownBytes q started packet + packetBytes q s started idx packets

/-- The bytes of the frame in the sectors the loop goes over; `none` where a header does not
parse. -/
def sectorBytes (q : Request) (foundLsn : UInt32) (headers : Nat → Option AudioSector) :
    Nat → Nat → Assembly → Option Nat
  | 0, _, _ => some 0
  | n + 1, sector, a =>
    if a.frameComplete then some 0
    else match headers sector with
      | none => none
      | some s => (sectorBytes q foundLsn headers n (sector + 1)
          (readSector q foundLsn s sector a)).map
        (packetBytes q s a.frameStarted 0 s.packets + ·)

/-- The bytes of the frame in the sectors fetched. -/
def frameBytesAt (r : FrameReader) (d : DstReader) (q : Request) (foundLsn : UInt32)
    (sectorCount : Nat) : Nat :=
  let fetched := fetch r d.sectorBuffer foundLsn (UInt32.ofNat sectorCount)
  match fetched.sectors with
  | none => 0
  | some n =>
    (sectorBytes q foundLsn (sectorHeader r fetched.buffer) n 0 (.start sectorCount)).getD 0

/-- The audio bytes the disc has for a frame, where the reader comes to look for it. -/
def frameBytes (r : FrameReader) (d : DstReader) (q : Request) : Nat :=
  if d.Sequential q then frameBytesAt r d q d.cachedFrameLsn maxDstSectors
  else
    let seek := dstSectorSeek r q.frameNum d.sectorBuffer
    if seek.status ≠ readerOk then 0
    else frameBytesAt r { d with sectorBuffer := seek.buffer } q seek.foundLsn
      (validSectorCount seek.sectorCount)

/-! ## The length of a frame -/

section Length

variable {q : Request} {l : UInt32} {s : AudioSector} {sector : Nat}

theorem copyPacket_length (packet : PacketInfo) (offset : Nat) {a : Assembly}
    (h : a.outputLength ≤ q.maxLength) :
    (copyPacket q packet sector offset a).outputLength =
      min q.maxLength (a.outputLength + ownBytes q a.frameStarted packet) := by
  unfold copyPacket ownBytes
  split
  · have hlen : a.outputLength + copyLength q a.outputLength packet.packetLength =
        min q.maxLength (a.outputLength + packet.packetLength) := by
      unfold copyLength
      split <;> omega
    simp only
    split
    · exact hlen
    · next hzero =>
      rw [← hlen]
      omega
  · omega

theorem startFrame_started {idx : Nat} {a : Assembly} (ha : ¬ a.frameStarted = true) :
    (startFrame q s idx a).frameStarted =
      decide (timeToFrame (s.frame idx) = q.frameNum.toNat) := by
  unfold startFrame
  split
  · next htime => rw [decide_eq_true htime]
  · next htime =>
    rw [decide_eq_false htime]
    exact Bool.eq_false_iff.mpr ha

/-- A sector adds its bytes of the frame, as far as there is room. -/
theorem readPackets_length (packets : List PacketInfo) (idx offset : Nat) {a : Assembly}
    (h : a.outputLength ≤ q.maxLength) :
    (readPackets q l s sector idx offset packets a).outputLength =
      min q.maxLength (a.outputLength + packetBytes q s a.frameStarted idx packets) := by
  induction packets generalizing idx offset a with
  | nil =>
    rw [readPackets, packetBytes]
    omega
  | cons packet packets ih =>
    -- one packet, then the rest
    have hgo : ∀ (idx : Nat) (b : Assembly), b.outputLength = a.outputLength →
        (readPackets q l s sector idx (offset + packet.packetLength) packets
          (copyPacket q packet sector offset b)).outputLength =
            min q.maxLength (a.outputLength + (ownBytes q b.frameStarted packet +
              packetBytes q s b.frameStarted idx packets)) := by
      intro idx b hb
      have hcopied : (copyPacket q packet sector offset b).outputLength = _ :=
        copyPacket_length packet offset (hb.trans_le h)
      rw [ih idx _ (by omega), copyPacket_started, hcopied, hb]
      omega
    rw [readPackets, packetBytes]
    by_cases hstart : packet.startsFrame = true
    · rw [if_pos hstart, if_pos hstart]
      by_cases ha : a.frameStarted = true
      · rw [if_pos ha, if_pos ha]
        simp only
        omega
      · rw [if_neg ha, if_neg ha, hgo _ _ (startFrame_output idx a), startFrame_started ha]
    · rw [if_neg hstart, if_neg hstart]
      exact hgo idx a rfl

theorem countSector_length (a : Assembly) :
    (countSector l s sector a).outputLength = a.outputLength := by
  unfold countSector
  split
  · split <;> rfl
  · rfl

theorem readSector_length {a : Assembly} (h : a.outputLength ≤ q.maxLength) :
    (readSector q l s sector a).outputLength =
      min q.maxLength (a.outputLength + packetBytes q s a.frameStarted 0 s.packets) := by
  rw [readSector, countSector_length]
  exact readPackets_length s.packets 0 s.dataOffset h

theorem sectorLoop_length {headers : Nat → Option AudioSector} (n sector : Nat) {a : Assembly}
    (h : a.outputLength ≤ q.maxLength) :
    (sectorLoop q l headers n sector a).map Assembly.outputLength =
      (sectorBytes q l headers n sector a).map
        fun bytes => min q.maxLength (a.outputLength + bytes) := by
  induction n generalizing sector a with
  | zero =>
    rw [sectorLoop, sectorBytes, Option.map_some, Option.map_some, Nat.add_zero,
      Nat.min_eq_right h]
  | succ n ih =>
    rw [sectorLoop, sectorBytes]
    by_cases hdone : a.frameComplete = true
    · rw [if_pos hdone, if_pos hdone, Option.map_some, Option.map_some, Nat.add_zero,
        Nat.min_eq_right h]
    · rw [if_neg hdone, if_neg hdone]
      cases headers sector with
      | none => rfl
      | some s =>
        have hread : (readSector q l s sector a).outputLength = _ := readSector_length h
        simp only
        rw [ih (sector + 1) (hread.trans_le (Nat.min_le_left _ _)), Option.map_map]
        congr 1
        funext bytes
        simp only [Function.comp_apply]
        omega

theorem readFrameAt_length (r : FrameReader) (d : DstReader) (q : Request) (l : UInt32) (n : Nat) :
    (readFrameAt r d q l n).1.length = min q.maxLength (frameBytesAt r d q l n) := by
  unfold readFrameAt frameBytesAt
  simp only
  cases (fetch r d.sectorBuffer l (UInt32.ofNat n)).sectors with
  | none => exact (Nat.min_zero _).symm
  | some m =>
    have hloop : (sectorLoop q l (sectorHeader r (fetch r d.sectorBuffer l
        (UInt32.ofNat n)).buffer) m 0 (.start n)).map Assembly.outputLength = _ :=
      sectorLoop_length m 0 (Nat.zero_le _)
    simp only
    cases hassembly : sectorLoop q l
        (sectorHeader r (fetch r d.sectorBuffer l (UInt32.ofNat n)).buffer) m 0 (.start n) with
    | none =>
      rw [hassembly] at hloop
      rw [Option.map_eq_none_iff.mp hloop.symm]
      exact (Nat.min_zero _).symm
    | some a =>
      rw [hassembly] at hloop
      obtain ⟨bytes, hbytes, hlength⟩ := Option.map_eq_some_iff.mp hloop.symm
      rw [hbytes, Option.getD_some]
      show a.outputLength = min q.maxLength bytes
      rw [← hlength]
      show min q.maxLength (0 + bytes) = _
      rw [Nat.zero_add]

/-- A frame is cut off where its room ends. -/
theorem dstReaderReadFrame_length (r : FrameReader) (d : DstReader) (q : Request) :
    (dstReaderReadFrame r d q).1.length = min q.maxLength (frameBytes r d q) := by
  unfold dstReaderReadFrame frameBytes
  by_cases hseq : d.Sequential q
  · rw [if_pos hseq, if_pos hseq]
    exact readFrameAt_length _ _ _ _ _
  · rw [if_neg hseq, if_neg hseq]
    simp only
    split
    · exact (Nat.min_zero _).symm
    · exact readFrameAt_length _ _ _ _ _

/-- From the fetch on, every status has the value of success. -/
theorem readFrameAt_status (r : FrameReader) (d : DstReader) (q : Request) (l : UInt32) (n : Nat) :
    (readFrameAt r d q l n).1.status = readerOk := by
  unfold readFrameAt
  simp only
  split
  · rfl
  · split <;> rfl

theorem frameBytes_of_failed {r : FrameReader} {d : DstReader}
    (h : (dstReaderReadFrame r d q).1.status ≠ readerOk) : frameBytes r d q = 0 := by
  unfold dstReaderReadFrame at h
  unfold frameBytes
  split at h
  · exact absurd (readFrameAt_status _ _ _ _ _) h
  · next hseq =>
    simp only at h
    split at h
    · next hseek => rw [if_neg hseq, if_pos hseek]
    · exact absurd (readFrameAt_status _ _ _ _ _) h

theorem FrameRead.bytes_length (x : FrameRead) : x.bytes.length = x.length := by
  rw [FrameRead.bytes, List.length_take, List.length_append, List.length_replicate]
  omega

/-- The frames of the fixed layouts are as long as two channels of DSD. -/
theorem readDefs_length (r : FrameReader) (first : UInt32) (i : Nat) (ds : List ReadDef)
    (buffer data : Bytes) : (readDefs r first i ds buffer data).2.length ≤
      data.length + (ds.map ReadDef.length).sum := by
  induction ds generalizing i buffer data with
  | nil => exact Nat.le_add_right _ _
  | cons d ds ih =>
    rw [readDefs]
    split
    · exact Nat.le_add_right _ _
    · apply le_trans (ih _ _ _)
      rw [List.length_append, slice_length, List.map_cons, List.sum_cons]
      omega

theorem row_length (fmt : FixedFormat) (frame : Nat) :
    (((fmt.row frame).state.take (fmt.row frame).sectorCount).map ReadDef.length).sum =
      dsdFrameSize := by
  have hrows : ∀ idx < 3, (((fmt.row idx).state.take (fmt.row idx).sectorCount).map
      ReadDef.length).sum = dsdFrameSize := by
    cases fmt <;> decide
  rw [← fmt.row_mod]
  exact hrows _ (Nat.mod_lt _ (by decide))

theorem dsdAudioFixedReadFrame_length (fmt : FixedFormat) (r : FrameReader) (buffer : Bytes)
    (frame : UInt32) :
    (dsdAudioFixedReadFrame fmt r buffer frame).2.length ≤ dsdFrameSize := by
  rw [← row_length fmt frame.toNat]
  exact (readDefs_length _ _ _ _ _ _).trans_eq (Nat.zero_add _)

end Length

/-! ## Calls -/

section Calls

variable {μ ι : Type} {ctx : Context μ (AreaToc AreaReader) ι} {area : AreaToc AreaReader}
variable {frame : UInt32}

/-- The number of the frame that is read. -/
def AreaToc.target (area : AreaToc AreaReader) (frame : UInt32) : UInt32 :=
  if frame = frameStartUseCurrent then area.curFrameNumData else frame

/-- The area has the frame and counts it; the last one is not counted at the current
position. -/
structure AreaToc.Counts (area : AreaToc AreaReader) (frame : UInt32) : Prop where
  initialized : area.initialized = true
  inArea : ¬ area.totalAreaPlayTime < frame + 1
  notLast : frame = frameStartUseCurrent →
    ¬ area.totalAreaPlayTime - 1 < area.curFrameNumData + 1

/-- A DST reader has no more bytes for the frame than its buffer, or no more than five
channels. -/
def AreaToc.Suits (area : AreaToc AreaReader) (frame : UInt32) : Prop :=
  match area.frameReader with
  | .dst r d => area.channelCount.toNat ≤ 5 ∨
      frameBytes r d ⟨area.room.toNat, frame, dataTypeAudio⟩ ≤ sacdMaxDsdSize
  | .fixed .. => True

/-- The frame of a call suits, if the call delivers any. -/
def FrameSuits (ctx : Context μ (AreaToc AreaReader) ι) (frame : UInt32) : Prop :=
  ctx.initialized = true → ∀ area, ctx.selectedAreaToc = some area → area.Counts frame →
    area.Suits (area.target frame)

theorem room_toNat (area : AreaToc AreaReader) :
    area.room.toNat = 4705 * area.channelCount.toNat := by
  have hlt := area.channelCount.toNat_lt
  rw [AreaToc.room, UInt32.toNat_mul, UInt16.toNat_toUInt32]
  exact Nat.mod_eq_of_lt (by simp; omega)

/-- What the reader of the area reads. -/
def AreaToc.frameRead (area : AreaToc AreaReader) (frame : UInt32) :
    Int × List UInt8 × AreaReader :=
  readAreaFrame area.room (area.target frame) area.frameReader

theorem soundLoop_one (area : AreaToc AreaReader) (frame : UInt32) :
    (soundLoop readAreaFrame frame 1 0 area).1.frames =
      if (area.getAudioData readAreaFrame (4705 * area.getChannelCount.toUInt32) frame).1 = sacdOk
      then [(area.getAudioData readAreaFrame (4705 * area.getChannelCount.toUInt32) frame).2.1]
      else [] := by
  have hcur : curFrameNum frame 0 = frame := by
    unfold curFrameNum
    split
    · exact UInt32.add_zero frame
    · next huse => exact (not_not.mp huse).symm
  rw [soundLoop, hcur]
  generalize area.getAudioData readAreaFrame (4705 * area.getChannelCount.toUInt32) frame = got
  obtain ⟨result, data, after⟩ := got
  by_cases hok : result = sacdOk
  · simp only [hok, ne_eq, not_true_eq_false, if_false, if_true]
    rfl
  · simp only [hok, ne_eq, not_false_eq_true, if_true, if_false]

/-- A frame that is read and counted is delivered. -/
theorem getAudioData_ok (area : AreaToc AreaReader) (frame : UInt32) (room : UInt32)
    (hinit : area.initialized = true) :
    (area.getAudioData readAreaFrame room frame).2.1 =
        (readAreaFrame room (area.target frame) area.frameReader).2.1 ∧
      ((area.getAudioData readAreaFrame room frame).1 = sacdOk ↔
        (readAreaFrame room (area.target frame) area.frameReader).1 = sacdOk ∧
          (frame = frameStartUseCurrent →
            ¬ area.totalAreaPlayTime - 1 < area.curFrameNumData + 1)) := by
  have hnot : ¬ area.initialized = false := by rw [hinit]; exact Bool.noConfusion
  unfold AreaToc.getAudioData AreaToc.target
  rw [if_neg hnot]
  simp only
  generalize readAreaFrame room (if frame = frameStartUseCurrent then area.curFrameNumData
    else frame) area.frameReader = got
  obtain ⟨result, data, reader⟩ := got
  simp only
  split
  · next hok =>
    split
    · next hlast =>
      exact ⟨rfl, fun hend => absurd hend.symm ok_ne_end, fun h => absurd hlast (h.2 hok.2)⟩
    · next hmore => exact ⟨rfl, fun h => ⟨h, fun _ => hmore⟩, fun h => h.1⟩
  · next hnot => exact ⟨rfl, fun h => ⟨h, fun huse => absurd ⟨h, huse⟩ hnot⟩, fun h => h.1⟩

/-- What a call delivers, from the area it reads. -/
theorem frameCall_frames (hinit : ctx.initialized = true)
    (hsel : ctx.selectedAreaToc = some area) : (frameCall ctx frame).1.frames =
      if area.totalPlayTime < frame + 1 then []
      else (soundLoop readAreaFrame frame 1 0 area).1.frames := by
  have hnot : ¬ ctx.initialized = false := by rw [hinit]; exact Bool.noConfusion
  unfold frameCall sacdGetSoundData
  rw [if_neg hnot, hsel]
  simp only
  split
  · rfl
  · rw [if_neg (fun h => Bool.noConfusion h.2)]
    rfl

theorem frames_of_counts (hinit : ctx.initialized = true)
    (hsel : ctx.selectedAreaToc = some area) (hcounts : area.Counts frame) :
    (frameCall ctx frame).1.frames =
      if (area.frameRead frame).1 = sacdOk then [(area.frameRead frame).2.1] else [] := by
  have hin := hcounts.inArea
  have harea := hcounts.initialized
  have hnot : ¬ area.initialized = false := by rw [harea]; exact Bool.noConfusion
  have hchannels : area.getChannelCount = area.channelCount := if_neg hnot
  have htime : area.totalPlayTime = area.totalAreaPlayTime := if_neg hnot
  obtain ⟨hdata, hok⟩ := getAudioData_ok area frame area.room harea
  rw [frameCall_frames hinit hsel, htime, if_neg hin, soundLoop_one, hchannels]
  change (if (area.getAudioData readAreaFrame area.room frame).1 = sacdOk then
    [(area.getAudioData readAreaFrame area.room frame).2.1] else []) = _
  have hstatus : (area.getAudioData readAreaFrame area.room frame).1 = sacdOk ↔
      (area.frameRead frame).1 = sacdOk := by
    rw [hok]
    exact ⟨fun h => h.1, fun h => ⟨h, hcounts.notLast⟩⟩
  simp only [hstatus, hdata]
  rfl

theorem frames_of_none (h : ctx.initialized = true → ∀ area, ctx.selectedAreaToc = some area →
    ¬ area.Counts frame) : (frameCall ctx frame).1.frames = [] := by
  by_cases hinit : ctx.initialized = true
  · cases hsel : ctx.selectedAreaToc with
    | none =>
      unfold frameCall sacdGetSoundData
      rw [if_neg (by rw [hinit]; exact Bool.noConfusion), hsel]
    | some area =>
      have hnone := h hinit area hsel
      rw [frameCall_frames hinit hsel, soundLoop_one]
      by_cases harea : area.initialized = true
      · have hnot : ¬ area.initialized = false := by rw [harea]; exact Bool.noConfusion
        have htime : area.totalPlayTime = area.totalAreaPlayTime := if_neg hnot
        rw [htime]
        split
        · rfl
        · next hin =>
          rw [if_neg]
          intro hok
          rw [(getAudioData_ok area frame _ harea).2] at hok
          exact hnone ⟨harea, hin, hok.2⟩
      · have hstatus : (area.getAudioData readAreaFrame (4705 * area.getChannelCount.toUInt32)
            frame).1 ≠ sacdOk := by
          rw [AreaToc.getAudioData, if_pos (Bool.eq_false_iff.mpr harea)]
          exact (by decide : areaTocUninitialized ≠ sacdOk)
        rw [if_neg hstatus, ite_self]
  · unfold frameCall sacdGetSoundData
    rw [if_pos (Bool.eq_false_iff.mpr hinit)]

theorem fits_iff_suits (area : AreaToc AreaReader) (frame : UInt32) :
    ((area.frameRead frame).1 = sacdOk →
      (area.frameRead frame).2.1.length ≤ sacdMaxDsdSize) ↔ area.Suits (area.target frame) := by
  unfold AreaToc.frameRead AreaToc.Suits
  cases area.frameReader with
  | fixed fmt r buffer =>
    have hlen := dsdAudioFixedReadFrame_length fmt r buffer (area.target frame)
    exact ⟨fun _ => trivial, fun _ _ => le_trans hlen (by decide)⟩
  | dst r d =>
    let q : Request := ⟨area.room.toNat, area.target frame, dataTypeAudio⟩
    have hroom := room_toNat area
    have hlen : (dstReaderReadFrame r d q).1.bytes.length =
        min (4705 * area.channelCount.toNat) (frameBytes r d q) := by
      rw [FrameRead.bytes_length, dstReaderReadFrame_length, ← hroom]
    have hmax : sacdMaxDsdSize = 28224 := rfl
    show ((dstReaderReadFrame r d q).1.status = sacdOk →
      (dstReaderReadFrame r d q).1.bytes.length ≤ sacdMaxDsdSize) ↔
        area.channelCount.toNat ≤ 5 ∨ frameBytes r d q ≤ sacdMaxDsdSize
    by_cases hok : (dstReaderReadFrame r d q).1.status = sacdOk
    · rw [hlen, hmax]
      constructor
      · intro h
        have hle := h hok
        omega
      · intro h _
        omega
    · have hzero := frameBytes_of_failed hok
      rw [hzero]
      exact ⟨fun _ => .inr (Nat.zero_le _), fun _ h => absurd h hok⟩

theorem fitsBuffer_iff (ctx : Context μ (AreaToc AreaReader) ι) (frame : UInt32) :
    FitsBuffer ctx frame ↔ FrameSuits ctx frame := by
  by_cases h : ∃ area, ctx.initialized = true ∧ ctx.selectedAreaToc = some area ∧
      area.Counts frame
  · obtain ⟨area, hinit, hsel, hcounts⟩ := h
    have hframes := frames_of_counts hinit hsel hcounts
    have hsuits : FrameSuits ctx frame ↔ area.Suits (area.target frame) := by
      constructor
      · intro h
        exact h hinit area hsel hcounts
      · intro h _ area' hsel' _
        rw [hsel] at hsel'
        cases hsel'
        exact h
    rw [hsuits, ← fits_iff_suits, FitsBuffer, hframes]
    split
    · next hok => simp only [List.mem_singleton, forall_eq, hok, forall_const]
    · next hnot => exact ⟨fun _ hok => absurd hok hnot, fun _ => nofun⟩
  · have hnone : ctx.initialized = true → ∀ area, ctx.selectedAreaToc = some area →
        ¬ area.Counts frame := fun hinit area hsel hcounts => h ⟨area, hinit, hsel, hcounts⟩
    rw [FitsBuffer, frames_of_none hnone]
    exact ⟨fun _ hinit area hsel hcounts => absurd hcounts (hnone hinit area hsel),
      fun _ => nofun⟩

/-- Every frame of a run of calls fits its buffer exactly when every frame suits. -/
theorem run_fitsBuffer_iff (ctx : Context μ (AreaToc AreaReader) ι) (frames : List UInt32) :
    Along callStep FitsBuffer ctx frames ↔ Along callStep FrameSuits ctx frames :=
  along_congr fitsBuffer_iff ctx frames

end Calls

/-! ## A frame longer than its buffer

Frame 0 of a disc of six channels, in fourteen full sectors. -/

def wideFirst : Bytes := [0x25, 0x97, 0xF8, 0, 0, 0, 0x38] ++ List.replicate 2041 0

def wideNext : Bytes := [0x21, 0x17, 0xF8] ++ List.replicate 2045 0

def wideFrame : Bytes := wideFirst ++ (List.replicate 13 wideNext).flatten

def wideReader : FrameReader := bareDisc wideFrame 0 0

def wideArea : AreaToc AreaReader :=
  ⟨true, 1, 0, 6, .dst, .dst wideReader (dstReaderInit wideReader)⟩

def wideDisc : Context Unit (AreaToc AreaReader) Unit :=
  { Context.create with initialized := true, stAreaToc := some wideArea }

/-- The headers of its sectors. -/
def wideHeader (sector : Nat) : AudioSector :=
  if sector = 0 then ⟨true, [⟨true, 2, 2040⟩], [⟨0, 0, 0, 14⟩], 7⟩
  else ⟨true, [⟨false, 2, 2040⟩], [], 3⟩

def wideRequest : Request := ⟨wideArea.room.toNat, 0, dataTypeAudio⟩

theorem sectorBytes_congr {q : Request} {l : UInt32} {headers headers' : Nat → Option AudioSector}
    (n sector : Nat) (a : Assembly)
    (h : ∀ i, sector ≤ i → i < sector + n → headers i = headers' i) :
    sectorBytes q l headers n sector a = sectorBytes q l headers' n sector a := by
  induction n generalizing sector a with
  | zero => rfl
  | succ n ih =>
    have hhead := h sector (Nat.le_refl _) (by omega)
    have htail := fun s => ih (sector + 1) (readSector q l s sector a)
      fun i hlow hhigh => h i (by omega) (by omega)
    simp only [sectorBytes, hhead, htail]

theorem wideFirst_length : wideFirst.length = lsnSize := by
  rw [wideFirst, List.length_append, List.length_replicate]
  rfl

theorem wideNext_length : wideNext.length = lsnSize := by
  rw [wideNext, List.length_append, List.length_replicate]
  rfl

theorem flatten_replicate_length (n : Nat) :
    (List.replicate n wideNext).flatten.length = n * lsnSize := by
  rw [List.length_flatten, List.map_replicate, List.sum_replicate_nat, wideNext_length]

theorem wideFrame_length : wideFrame.length = 14 * lsnSize := by
  rw [wideFrame, List.length_append, wideFirst_length, flatten_replicate_length]
  omega

set_option maxRecDepth 1024

theorem wideFirst_header : parseAudioSectorHeader wideFirst = some (wideHeader 0) := by
  decide

theorem wideNext_header : parseAudioSectorHeader wideNext = some (wideHeader 1) := by
  decide

theorem wideFrame_header (buffer : Bytes) {i : Nat} (hi : i < 14) :
    sectorHeader wideReader (store buffer wideFrame) i = some (wideHeader i) := by
  obtain rfl | hpos := Nat.eq_zero_or_pos i
  · have hpayload := sectorPayload_store wideFrame buffer [] wideFirst
      (List.replicate 13 wideNext).flatten 0 0 0 rfl wideFirst_length
    exact (sectorHeader_bareDisc hpayload).trans wideFirst_header
  · have hsplit : wideFrame = wideFirst ++ (List.replicate (i - 1) wideNext).flatten ++ wideNext ++
        (List.replicate (13 - i) wideNext).flatten := by
      have hcount : List.replicate 13 wideNext = List.replicate (i - 1) wideNext ++
          wideNext :: List.replicate (13 - i) wideNext := by
        rw [← List.replicate_succ, List.replicate_append_replicate]
        congr 1
        omega
      rw [wideFrame, hcount, List.flatten_append, List.flatten_cons]
      simp only [List.append_assoc]
    have hpre : (wideFirst ++ (List.replicate (i - 1) wideNext).flatten).length = i * lsnSize := by
      rw [List.length_append, wideFirst_length, flatten_replicate_length]
      simp only [lsnSize]
      omega
    have hpayload := sectorPayload_store wideFrame buffer
      (wideFirst ++ (List.replicate (i - 1) wideNext).flatten) wideNext
      (List.replicate (13 - i) wideNext).flatten 0 0 i hpre wideNext_length
    rw [← hsplit] at hpayload
    have hheader : wideHeader i = wideHeader 1 := by
      rw [wideHeader, if_neg (by omega)]
      rfl
    rw [hheader]
    exact (sectorHeader_bareDisc hpayload).trans wideNext_header

/-- The search finds the frame in the first sector. -/
theorem wideReader_seek (buffer : Bytes) :
    dstSectorSeek wideReader 0 buffer = ⟨readerOk, 0, 14, store buffer wideFirst⟩ := by
  have hfetched : fetchOne wideReader buffer 0 = ⟨some 1, store buffer wideFirst⟩ := by
    have hone : ((0 : UInt32).toNat + 1) * lsnSize ≤ wideFrame.length := by
      rw [wideFrame_length]
      decide
    have hfirst : (wideFrame.drop ((0 : UInt32).toNat * lsnSize)).take lsnSize = wideFirst := by
      rw [show (0 : UInt32).toNat * lsnSize = 0 from rfl, List.drop_zero, ← wideFirst_length,
        wideFrame, List.take_left]
    rw [wideReader, fetchOne_bareDisc hone, hfirst]
  have hheader : sectorHeader wideReader (store buffer wideFirst) 0 = some (wideHeader 0) := by
    have hpayload := sectorPayload_front wideFrame buffer 0 0 wideFirst_length
    exact (sectorHeader_bareDisc hpayload).trans wideFirst_header
  have hfind : findDstFrame wideReader 0 0 0 buffer =
      ⟨readerOk, 0, 14, store buffer wideFirst⟩ := by
    show findDstFrameLoop wideReader 0 1 0 buffer = _
    rw [findDstFrameLoop, hfetched]
    simp only [Option.bind_some, hheader]
    rfl
  have hrange : accessListRange wideReader 0 = (0, 0) := accessListRange_whole (.inl rfl)
  unfold dstSectorSeek
  simp only [hrange, hfind]
  rfl

theorem wideReader_fetch (buffer : Bytes) :
    fetch wideReader buffer 0 14 = ⟨some 14, store buffer wideFrame⟩ := by
  have hwhole : (wideFrame.drop ((0 : UInt32).toNat * lsnSize)).take
      ((14 : UInt32).toNat * lsnSize) = wideFrame := by
    rw [show (0 : UInt32).toNat * lsnSize = 0 from rfl, List.drop_zero]
    exact List.take_of_length_le (Nat.le_of_eq wideFrame_length)
  have hlen : ((0 : UInt32).toNat + (14 : UInt32).toNat) * lsnSize ≤ wideFrame.length := by
    rw [wideFrame_length]
    decide
  rw [wideReader, fetch_bareDisc _ _ _ (by decide) hlen, hwhole]
  rfl

theorem wideHeaders_bytes :
    sectorBytes wideRequest 0 (fun i => some (wideHeader i)) 14 0 (.start 14) =
      some (14 * 2040) := by
  decide

theorem wideReader_sectorBytes (buffer : Bytes) :
    sectorBytes wideRequest 0 (sectorHeader wideReader (store buffer wideFrame)) 14 0 (.start 14) =
      some (14 * 2040) := by
  rw [← wideHeaders_bytes]
  exact sectorBytes_congr 14 0 _ fun i _ hi => wideFrame_header buffer (by omega)

theorem frameBytesAt_of_fetch {r : FrameReader} {d : DstReader} {q : Request} {lsn : UInt32}
    {count n : Nat} {buffer : Bytes}
    (h : fetch r d.sectorBuffer lsn (UInt32.ofNat count) = ⟨some n, buffer⟩) :
    frameBytesAt r d q lsn count =
      (sectorBytes q lsn (sectorHeader r buffer) n 0 (.start count)).getD 0 := by
  rw [frameBytesAt, h]

theorem frameBytes_of_seek {r : FrameReader} {d : DstReader} {q : Request}
    (hsequential : ¬d.Sequential q) {lsn : UInt32} {count : Nat} {buffer : Bytes}
    (h : dstSectorSeek r q.frameNum d.sectorBuffer = ⟨readerOk, lsn, count, buffer⟩) :
    frameBytes r d q =
      frameBytesAt r { d with sectorBuffer := buffer } q lsn (validSectorCount count) := by
  rw [frameBytes, if_neg hsequential, h]
  exact if_neg fun hne => hne rfl

theorem wideReader_bytes :
    frameBytes wideReader (dstReaderInit wideReader) wideRequest = 14 * 2040 := by
  obtain ⟨buffer, hbuffer⟩ : ∃ buffer, (dstReaderInit wideReader).sectorBuffer = buffer := ⟨_, rfl⟩
  have hcount : validSectorCount 14 = 14 := rfl
  have hfetch : fetch wideReader (store buffer wideFirst) 0 (UInt32.ofNat 14) =
      ⟨some 14, store (store buffer wideFirst) wideFrame⟩ := wideReader_fetch _
  have hseek : dstSectorSeek wideReader wideRequest.frameNum (dstReaderInit wideReader).sectorBuffer =
      ⟨readerOk, 0, 14, store buffer wideFirst⟩ := by
    rw [hbuffer]
    exact wideReader_seek buffer
  rw [frameBytes_of_seek (dstReaderInit_not_sequential _ _) hseek, hcount,
    frameBytesAt_of_fetch (d := { dstReaderInit wideReader with
      sectorBuffer := store buffer wideFirst }) hfetch, wideReader_sectorBytes, Option.getD_some]

theorem frame_not_fits : ¬ ∀ (ctx : Context Unit (AreaToc AreaReader) Unit) (frames : List UInt32),
    Along callStep FitsBuffer ctx frames := by
  intro h
  have hfits := (fitsBuffer_iff wideDisc 0).mp (h wideDisc [0]).1
  have hsuits := hfits rfl wideArea rfl ⟨rfl, by decide, fun huse => absurd huse (by decide)⟩
  obtain hfew | hshort := hsuits
  · exact absurd hfew (by decide)
  · have hbytes := wideReader_bytes.symm.trans_le hshort
    exact absurd hbytes (by decide)

end DsdNexus.Sacd
