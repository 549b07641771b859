import DsdNexus.Dsf.Stream

/-! # DSF: what opening finds

Three chunk readers fill one record in sequence, and the second starts it anew: what the DSD
chunk says of the file and its metadata is lost. The metadata are read last, and the file
then stands behind them.
-/

namespace DsdNexus.Dsf

open Program FileProgram Endian

/-! ## What reading leaves behind -/

theorem sameBytes_ioReadBytes (n : Nat) : Keeps SameBytes (ioReadBytes n) :=
  Onward.sameBytes (onward_readExact _ n)

theorem sameBytes_ioReadUint32Le : Keeps SameBytes ioReadUint32Le :=
  (sameBytes_ioReadBytes 4).bind fun _ => Keeps.pure _

theorem sameBytes_ioReadUint64Le : Keeps SameBytes ioReadUint64Le :=
  (sameBytes_ioReadBytes 8).bind fun _ => Keeps.pure _

theorem sameBytes_chunkReadDsdHeader : Keeps SameBytes chunkReadDsdHeader :=
  (sameBytes_ioReadBytes 4).bind fun _ => (Keeps.require _ _).bind fun _ =>
    sameBytes_ioReadUint64Le.bind fun _ => (Keeps.require _ _).bind fun _ =>
      sameBytes_ioReadUint64Le.bind fun _ => sameBytes_ioReadUint64Le.bind fun _ => Keeps.pure _

/-- A field of 32 bits that is checked. -/
theorem sameBytes_checked {α : Type} {p : UInt32 → Prop} [∀ n, Decidable (p n)] (e : Error)
    {k : UInt32 → Io α} (hk : ∀ n, Keeps SameBytes (k n)) :
    Keeps SameBytes (do
      let n ← ioReadUint32Le
      require (p n) e
      k n) :=
  sameBytes_ioReadUint32Le.bind fun n => (Keeps.require _ _).bind fun _ => hk n

theorem sameBytes_chunkReadFmt : Keeps SameBytes chunkReadFmt := by
  refine (sameBytes_ioReadBytes 4).bind fun _ => (Keeps.require _ _).bind fun _ => ?_
  refine sameBytes_ioReadUint64Le.bind fun _ => (Keeps.require _ _).bind fun _ => ?_
  refine sameBytes_checked _ fun _ => sameBytes_checked _ fun _ => sameBytes_checked _ fun _ => ?_
  refine sameBytes_checked _ fun _ => sameBytes_checked _ fun _ => sameBytes_checked _ fun _ => ?_
  refine sameBytes_ioReadUint64Le.bind fun _ => sameBytes_checked _ fun _ => ?_
  exact sameBytes_ioReadUint32Le.bind fun _ => Keeps.pure _

theorem sameBytes_tell : Keeps SameBytes (tell : Io Nat) := Onward.sameBytes onward_tell

theorem sameBytes_chunkReadDataHeader : Keeps SameBytes chunkReadDataHeader :=
  (sameBytes_ioReadBytes 4).bind fun _ => (Keeps.require _ _).bind fun _ =>
    sameBytes_ioReadUint64Le.bind fun _ => (Keeps.require _ _).bind fun _ =>
      (Keeps.require _ _).bind fun _ => sameBytes_tell.bind fun _ => Keeps.pure _

theorem sameBytes_chunkReadMetadata (metadataOffset : Nat) :
    Keeps SameBytes (chunkReadMetadata metadataOffset) := by
  have hsize : Keeps SameBytes ioGetFileSize := fun f => rfl
  exact (Keeps.require _ _).bind fun _ => hsize.bind fun _ => (Keeps.require _ _).bind fun _ =>
    (Keeps.require _ _).bind fun _ => (Keeps.require _ _).bind fun _ =>
      (sameBytes_seek _ _ _).bind fun _ => sameBytes_ioReadBytes _

/-- What a relation says of the files of two handles. -/
abbrev OfIo (R : ByteFile → ByteFile → Prop) : OpenHandle → OpenHandle → Prop :=
  Through OpenHandle.io R

theorem sameBytes_liftIo {α : Type} {m : Io α} (h : Keeps SameBytes m) :
    Keeps (OfIo SameBytes) (liftIo m) := Keeps.zoom (fun _ _ => rfl) h

theorem sameBytes_update (f : Handle → Handle) : Keeps (OfIo SameBytes) (update f) :=
  Keeps.modify fun _ => rfl

theorem sameBytes_settleInfo (dataSize : Nat) (info : FileInfo) :
    Keeps (OfIo SameBytes) (settleInfo dataSize info) := by
  unfold settleInfo
  split
  · exact Keeps.pure _
  · split
    · split
      · exact Keeps.fail _
      · dsimp only
        split
        · exact Keeps.fail _
        · split
          · exact Keeps.fail _
          · exact Keeps.pure _
    · exact Keeps.pure _

theorem sameBytes_readMetadataOf (metadataOffset : Nat) :
    Keeps (OfIo SameBytes) (readMetadataOf metadataOffset) := by
  intro s
  have hread : SameBytes s.io (chunkReadMetadata metadataOffset s.io).2 :=
    sameBytes_chunkReadMetadata metadataOffset s.io
  unfold readMetadataOf
  generalize chunkReadMetadata metadataOffset s.io = read at hread
  split
  · obtain ⟨e | metadata, io⟩ := read
    · exact hread
    · exact hread
  · rfl

theorem sameBytes_readFileStructure : Keeps (OfIo SameBytes) readFileStructure :=
  (sameBytes_liftIo sameBytes_chunkReadDsdHeader).bind fun _ => (sameBytes_update _).bind fun _ =>
    (sameBytes_liftIo sameBytes_chunkReadFmt).bind fun _ => (sameBytes_update _).bind fun _ =>
      (sameBytes_liftIo sameBytes_chunkReadDataHeader).bind fun _ =>
        (sameBytes_settleInfo _ _).bind fun _ => (sameBytes_update _).bind fun _ =>
          sameBytes_readMetadataOf _

/-! ## The numbers a file stores -/

/-- The little-endian number at a place of a file. -/
def field (content : Bytes) (offset n : Nat) : Nat := ofLe (slice content offset n)

/-- The same as a 32-bit word. -/
def field32 (content : Bytes) (offset : Nat) : UInt32 := UInt32.ofNat (field content offset 4)

def storedFileSize (content : Bytes) : Nat := field content 12 8

def storedMetadataOffset (content : Bytes) : Nat := field content 20 8

/-- The size of the data chunk without its head. -/
def storedDataSize (content : Bytes) : Nat := field content 84 8 - dataChunkHeaderSize

/-- The fields of the fmt chunk, and what is computed from them. -/
def storedFormat (content : Bytes) : FileInfo :=
  { FileInfo.zero with
    formatVersion := field32 content 40
    formatId := field32 content 44
    channelType := field32 content 48
    channelCount := field32 content 52
    samplingFrequency := field32 content 56
    bitsPerSample := field32 content 60
    sampleCount := field content 64 8
    blockSizePerChannel := field32 content 72
    audioDataSize := calculateAudioDataSize (field32 content 52) (field content 64 8)
      (field32 content 60)
    bitRate := calculateBitRate (field32 content 52) (field32 content 56) (field32 content 60) }

/-- The samples of the data chunk: those of the fmt chunk where these take the space of the
data, and the 1-bit samples of its whole blocks otherwise. -/
def settledSamples (info : FileInfo) (dataSize : Nat) : Nat :=
  if dataSize = info.audioDataSize ∨ info.bitsPerSample ≠ 1 then info.sampleCount
  else dataSize / info.channelCount.toNat / blockSizePerChannel * blockSizePerChannel * 8

/-- The record of an open file. -/
def openedInfo (content : Bytes) : FileInfo :=
  { storedFormat content with
    audioDataSize := storedDataSize content
    audioDataOffset := headSize
    sampleCount := settledSamples (storedFormat content) (storedDataSize content) }

/-! ## Reading back from a result -/

section

variable {content : Bytes} {p : Nat} {f : ByteFile}

theorem ioReadBytes_eq_ok_iff {n : Nat} (hn : 0 < n) {bytes : Bytes} :
    ioReadBytes n ⟨content, p⟩ = (.ok bytes, f) ↔
      p + n ≤ content.length ∧ bytes = slice content p n ∧ f = ⟨content, p + n⟩ := by
  have hrest : (ByteFile.mk content p).rest.length = content.length - p := ByteFile.rest_length _
  by_cases h : n ≤ (ByteFile.mk content p).rest.length
  · rw [ioReadBytes_of_le h]
    constructor
    · intro heq
      cases heq
      exact ⟨by omega, rfl, rfl⟩
    · rintro ⟨-, rfl, rfl⟩
      rfl
  · rw [ioReadBytes_of_lt (by omega)]
    constructor
    · intro heq
      cases heq
    · rintro ⟨hle, -, -⟩
      exact absurd hle (by omega)

theorem ioReadChunkId_eq_ok_iff {id : Bytes} : ioReadChunkId ⟨content, p⟩ = (.ok id, f) ↔
    p + 4 ≤ content.length ∧ id = slice content p 4 ∧ f = ⟨content, p + 4⟩ :=
  ioReadBytes_eq_ok_iff (by decide)

theorem ioReadUint32Le_eq_ok_iff {v : UInt32} : ioReadUint32Le ⟨content, p⟩ = (.ok v, f) ↔
    p + 4 ≤ content.length ∧ v = field32 content p ∧ f = ⟨content, p + 4⟩ := by
  simp only [ioReadUint32Le, bind_eq_ok_iff, ioReadBytes_eq_ok_iff (Nat.succ_pos 3), pure_apply]
  constructor
  · rintro ⟨_, _, ⟨hle, rfl, rfl⟩, heq⟩
    cases heq
    exact ⟨hle, rfl, rfl⟩
  · rintro ⟨hle, rfl, rfl⟩
    exact ⟨_, _, ⟨hle, rfl, rfl⟩, rfl⟩

theorem ioReadUint64Le_eq_ok_iff {v : Nat} : ioReadUint64Le ⟨content, p⟩ = (.ok v, f) ↔
    p + 8 ≤ content.length ∧ v = field content p 8 ∧ f = ⟨content, p + 8⟩ := by
  simp only [ioReadUint64Le, bind_eq_ok_iff, ioReadBytes_eq_ok_iff (Nat.succ_pos 7), pure_apply]
  constructor
  · rintro ⟨_, _, ⟨hle, rfl, rfl⟩, heq⟩
    cases heq
    exact ⟨hle, rfl, rfl⟩
  · rintro ⟨hle, rfl, rfl⟩
    exact ⟨_, _, ⟨hle, rfl, rfl⟩, rfl⟩

theorem chunkReadDsdHeader_eq_ok {r : Nat × Nat}
    (h : chunkReadDsdHeader ⟨content, 0⟩ = (.ok r, f)) :
    r = (storedFileSize content, storedMetadataOffset content) ∧ f = ⟨content, 28⟩ := by
  simp only [chunkReadDsdHeader, bind_eq_ok_iff, require_eq_ok_iff, ioReadChunkId_eq_ok_iff,
    ioReadUint64Le_eq_ok_iff, pure_apply, Prod.mk.injEq, Except.ok.injEq, and_assoc,
    exists_and_left, exists_eq_left, exists_eq_left', exists_const] at h
  obtain ⟨-, -, -, -, -, -, rfl, rfl⟩ := h
  exact ⟨rfl, rfl⟩

theorem chunkReadFmt_eq_ok {info : FileInfo} (h : chunkReadFmt ⟨content, 28⟩ = (.ok info, f)) :
    info = storedFormat content ∧ isValidChannelCount info.channelCount = true ∧
      f = ⟨content, 80⟩ := by
  simp only [chunkReadFmt, bind_eq_ok_iff, require_eq_ok_iff, ioReadChunkId_eq_ok_iff,
    ioReadUint32Le_eq_ok_iff, ioReadUint64Le_eq_ok_iff, pure_apply, Prod.mk.injEq,
    Except.ok.injEq, and_assoc, exists_and_left, exists_eq_left, exists_eq_left',
    exists_const] at h
  obtain ⟨-, -, -, -, -, -, -, -, -, -, -, hcount, -, -, -, -, -, -, -, -, rfl, rfl⟩ := h
  exact ⟨rfl, hcount, rfl⟩

theorem chunkReadDataHeader_eq_ok {r : Nat × Nat}
    (h : chunkReadDataHeader ⟨content, 80⟩ = (.ok r, f)) :
    r = (storedDataSize content, headSize) ∧ headSize ≤ content.length ∧
      f = ⟨content, headSize⟩ := by
  simp only [chunkReadDataHeader, bind_eq_ok_iff, require_eq_ok_iff, ioReadChunkId_eq_ok_iff,
    ioReadUint64Le_eq_ok_iff, tell_apply, pure_apply, Prod.mk.injEq, Except.ok.injEq, and_assoc,
    exists_and_left, exists_eq_left, exists_eq_left', exists_const] at h
  obtain ⟨-, -, hle, -, -, rfl, rfl⟩ := h
  exact ⟨rfl, hle, rfl⟩

end

/-! ## The open file -/

theorem settleInfo_eq_ok {dataSize : Nat} {info info' : FileInfo} {s s' : OpenHandle}
    (h : settleInfo dataSize info s = (.ok info', s')) :
    info' = { info with
      audioDataSize := dataSize, sampleCount := settledSamples info dataSize } ∧ s' = s := by
  unfold settleInfo at h
  unfold settledSamples
  by_cases hsize : dataSize = info.audioDataSize
  · rw [if_pos hsize] at h
    cases h
    rw [if_pos (Or.inl hsize), hsize]
    exact ⟨rfl, rfl⟩
  rw [if_neg hsize] at h
  by_cases hbits : info.bitsPerSample = 1
  · rw [if_neg (by simp [hsize, hbits])]
    rw [if_pos hbits] at h
    by_cases hchannels : info.channelCount = 0
    · rw [if_pos hchannels] at h
      cases h
    rw [if_neg hchannels] at h
    cases hblocks : uint64Mul (dataSize / info.channelCount.toNat / blockSizePerChannel)
        blockSizePerChannel with
    | none =>
      simp only [hblocks] at h
      cases h
    | some samplesPerBlock =>
      cases hsamples : uint64Mul samplesPerBlock 8 with
      | none =>
        simp only [hblocks, hsamples] at h
        cases h
      | some samples =>
        simp only [hblocks, hsamples] at h
        cases h
        simp only [uint64Mul, Option.ite_none_left_eq_some, Option.some.injEq] at hblocks hsamples
        rw [← hsamples.2, ← hblocks.2]
        exact ⟨rfl, rfl⟩
  · rw [if_neg hbits] at h
    cases h
    rw [if_pos (Or.inr hbits)]
    exact ⟨rfl, rfl⟩

/-- What an accepted file gives a handle, before the mode is set. -/
structure Opened (content : Bytes) (s : OpenHandle) : Prop where
  long : headSize ≤ content.length
  bytes : s.io.content = content
  info : s.handle.info = openedInfo content
  channelCount : isValidChannelCount (field32 content 52) = true
  buffer : s.handle.readBuffer = []
  bufferPos : s.handle.readBufferPos = 0
  place : storedMetadataOffset content = 0 → s.io.pos = headSize

theorem readMetadataOf_opened {offset : Nat} {s s' : OpenHandle}
    (h : readMetadataOf offset s = (.ok (), s')) :
    s'.io.content = s.io.content ∧
      (∃ metadata, s'.handle = { s.handle with metadata := metadata }) ∧
      (offset = 0 → s' = s) := by
  unfold readMetadataOf at h
  split at h
  · next hpos =>
    have hcontent : (chunkReadMetadata offset s.io).2.content = s.io.content :=
      sameBytes_chunkReadMetadata offset s.io
    split at h
    all_goals
      next hread =>
      cases h
      rw [hread] at hcontent
      exact ⟨hcontent, ⟨_, rfl⟩, fun hzero => absurd hpos.1 (by omega)⟩
  · cases h
    exact ⟨rfl, ⟨_, rfl⟩, fun _ => rfl⟩

theorem readFileStructure_opened {content : Bytes} {s : OpenHandle}
    (h : readFileStructure ⟨reset, ⟨content, 0⟩⟩ = (.ok (), s)) : Opened content s := by
  rw [readFileStructure] at h
  obtain ⟨r, _, hlift, h⟩ := bind_eq_ok h
  obtain ⟨f, hdsd, rfl⟩ := zoom_eq_ok_iff.1 hlift
  obtain ⟨rfl, rfl⟩ := chunkReadDsdHeader_eq_ok hdsd
  obtain ⟨_, _, hupdate, h⟩ := bind_eq_ok h
  cases hupdate
  obtain ⟨info, _, hlift, h⟩ := bind_eq_ok h
  obtain ⟨f, hfmt, rfl⟩ := zoom_eq_ok_iff.1 hlift
  obtain ⟨rfl, hcount, rfl⟩ := chunkReadFmt_eq_ok hfmt
  obtain ⟨_, _, hupdate, h⟩ := bind_eq_ok h
  cases hupdate
  obtain ⟨r, _, hlift, h⟩ := bind_eq_ok h
  obtain ⟨f, hdata, rfl⟩ := zoom_eq_ok_iff.1 hlift
  obtain ⟨rfl, hlong, rfl⟩ := chunkReadDataHeader_eq_ok hdata
  obtain ⟨settled, _, hsettle, h⟩ := bind_eq_ok h
  obtain ⟨rfl, rfl⟩ := settleInfo_eq_ok hsettle
  obtain ⟨_, _, hupdate, h⟩ := bind_eq_ok h
  cases hupdate
  obtain ⟨hbytes, ⟨metadata, hhandle⟩, hnone⟩ := readMetadataOf_opened h
  exact
    { long := hlong
      bytes := hbytes
      info := by rw [hhandle]; rfl
      channelCount := hcount
      buffer := by rw [hhandle]; rfl
      bufferPos := by rw [hhandle]; rfl
      place := fun hzero => by rw [hnone hzero] }

/-- A handle that `dsf_open` or `dsf_open_modify` gives. -/
def IsOpen (content : Bytes) (s : OpenHandle) : Prop :=
  dsfOpen content = .ok s ∨ dsfOpenModify content = .inl s

section

variable {content : Bytes} {s : OpenHandle}

theorem IsOpen.opened (h : IsOpen content s) :
    Opened content s ∧ (s.handle.mode = .read ∨ s.handle.mode = .modify) := by
  rcases h with h | h
  · unfold dsfOpen at h
    split at h
    · next t hread =>
      cases h
      have hopened := readFileStructure_opened hread
      exact ⟨⟨hopened.long, hopened.bytes, hopened.info, hopened.channelCount, hopened.buffer,
        hopened.bufferPos, hopened.place⟩, Or.inl rfl⟩
    · cases h
  · unfold dsfOpenModify at h
    split at h
    · next t hread =>
      cases h
      have hopened := readFileStructure_opened hread
      exact ⟨⟨hopened.long, hopened.bytes, hopened.info, hopened.channelCount, hopened.buffer,
        hopened.bufferPos, hopened.place⟩, Or.inr rfl⟩
    · cases h

/-- The channels of an open file. -/
def storedChannels (content : Bytes) : Nat := (field32 content 52).toNat

theorem Opened.storedChannels_pos (h : Opened content s) : 0 < storedChannels content := by
  have hcount := h.channelCount
  simp only [isValidChannelCount, Bool.and_eq_true, decide_eq_true_eq, UInt32.le_iff_toNat_le]
    at hcount
  exact Nat.lt_of_lt_of_le Nat.one_pos hcount.1

theorem Opened.channels (h : Opened content s) :
    s.handle.info.channelCount.toNat = storedChannels content := by
  rw [h.info]
  rfl

/-! ## The handle and its file -/

/-- The audio of the data chunk. -/
def audioStream (content : Bytes) : Bytes :=
  playback (storedChannels content) ((content.drop headSize).take (storedDataSize content))

/-- The fields of the fmt chunk are the same. -/
structure SameFormat (a b : FileInfo) : Prop where
  formatVersion : a.formatVersion = b.formatVersion
  formatId : a.formatId = b.formatId
  channelType : a.channelType = b.channelType
  channelCount : a.channelCount = b.channelCount
  samplingFrequency : a.samplingFrequency = b.samplingFrequency
  bitsPerSample : a.bitsPerSample = b.bitsPerSample
  sampleCount : a.sampleCount = b.sampleCount
  blockSizePerChannel : a.blockSizePerChannel = b.blockSizePerChannel

/-- What is reported of an open file is what it stores, and it stands at its audio. -/
structure Mirrors (content : Bytes) (s : OpenHandle) : Prop where
  info : ∃ info, (getFileInfo s).1 = .ok info ∧ info.fileSize = storedFileSize content ∧
    info.metadataOffset = storedMetadataOffset content ∧ SameFormat info (storedFormat content)
  position : (getAudioPosition s).1 = .ok 0
  firstRead : ∀ n, n ≤ (audioStream content).length →
    (readAudioData n s).1 = .ok ((audioStream content).take n, none)

/-- The samples of the fmt chunk take the space of the data, or are those of its whole
blocks; other than 1-bit samples are not counted again. -/
def SamplesFill (content : Bytes) : Prop :=
  storedDataSize content = (storedFormat content).audioDataSize ∨
    (storedFormat content).bitsPerSample ≠ 1 ∨
      (storedFormat content).sampleCount =
        storedDataSize content / storedChannels content / blockSizePerChannel *
          blockSizePerChannel * 8

theorem settledSamples_eq_iff : settledSamples (storedFormat content) (storedDataSize content) =
    (storedFormat content).sampleCount ↔ SamplesFill content := by
  unfold settledSamples SamplesFill
  by_cases hkept : storedDataSize content = (storedFormat content).audioDataSize ∨
      (storedFormat content).bitsPerSample ≠ 1
  · rw [if_pos hkept]
    exact ⟨fun _ => hkept.imp_right Or.inl, fun _ => rfl⟩
  · rw [if_neg hkept]
    obtain ⟨hsize, hbits⟩ := not_or.1 hkept
    exact ⟨fun h => Or.inr (Or.inr h.symm), fun h =>
      ((h.resolve_left hsize).resolve_left hbits).symm⟩

theorem getFileInfo_of_mode (h : s.handle.mode = .read ∨ s.handle.mode = .modify) :
    getFileInfo s = (.ok s.handle.info, s) := by
  have hmode : s.handle.mode ≠ .closed := by
    rcases h with h | h <;> simp [h]
  simp only [getFileInfo, bind_apply, get_apply, require_of hmode, pure_apply]

theorem getAudioPosition_of_mode (h : s.handle.mode = .read ∨ s.handle.mode = .modify) :
    getAudioPosition s = (.ok (s.io.pos - s.handle.info.audioDataOffset), s) := by
  simp only [getAudioPosition, bind_apply, get_apply, require_of h, liftIo, zoom_apply, tell_apply,
    pure_apply]

theorem readAudioData_of_mode (h : s.handle.mode = .read ∨ s.handle.mode = .modify) (n : Nat) :
    readAudioData n s = (.ok (readAudioLoop n n s).1, (readAudioLoop n n s).2) := by
  simp only [readAudioData, bind_apply, get_apply, require_of h]
  rfl

/-- The record keeps nothing of the DSD chunk. -/
theorem Opened.mirrored_iff (h : Opened content s)
    (hmode : s.handle.mode = .read ∨ s.handle.mode = .modify) :
    (∃ info, (getFileInfo s).1 = .ok info ∧ info.fileSize = storedFileSize content ∧
        info.metadataOffset = storedMetadataOffset content ∧
          SameFormat info (storedFormat content)) ↔
      storedFileSize content = 0 ∧ storedMetadataOffset content = 0 ∧ SamplesFill content := by
  have hfile : s.handle.info.fileSize = 0 := by rw [h.info]; rfl
  have hoffset : s.handle.info.metadataOffset = 0 := by rw [h.info]; rfl
  have hsamples : s.handle.info.sampleCount =
      settledSamples (storedFormat content) (storedDataSize content) := by rw [h.info]; rfl
  rw [getFileInfo_of_mode hmode, ← settledSamples_eq_iff, ← hsamples]
  constructor
  · rintro ⟨info, hget, hsize, hmetadata, hformat⟩
    cases hget
    exact ⟨hsize.symm.trans hfile, hmetadata.symm.trans hoffset, hformat.sampleCount⟩
  · rintro ⟨hsize, hmetadata, hcount⟩
    refine ⟨_, rfl, hfile.trans hsize.symm, hoffset.trans hmetadata.symm, ?_⟩
    constructor
    case sampleCount => exact hcount
    all_goals
      rw [h.info]
      rfl

theorem Opened.pending_eq (h : Opened content s) (hplace : s.io.pos = headSize) :
    pending s = playback (storedChannels content) (content.drop headSize) := by
  rw [pending, unread, h.buffer, List.drop_nil, List.nil_append, h.channels, ByteFile.rest,
    h.bytes, hplace]

/-- The audio of the data chunk comes first in what can be read. -/
theorem audioStream_isPrefix (h : 0 < storedChannels content) :
    audioStream content <+: playback (storedChannels content) (content.drop headSize) :=
  playback_isPrefix h (List.take_prefix _ _)

/-- A handle mirrors its file exactly where the DSD chunk stores no sizes: what it stores
is lost, and reading metadata moves the file behind them. -/
theorem open_mirrors_iff (h : IsOpen content s) : Mirrors content s ↔
    storedFileSize content = 0 ∧ storedMetadataOffset content = 0 ∧ SamplesFill content := by
  obtain ⟨hopened, hmode⟩ := h.opened
  constructor
  · exact fun hmirrors => (hopened.mirrored_iff hmode).1 hmirrors.info
  · intro hzero
    have hplace := hopened.place hzero.2.1
    have hchannels := hopened.storedChannels_pos
    refine ⟨(hopened.mirrored_iff hmode).2 hzero, ?_, fun n hn => ?_⟩
    · have hoffset : s.handle.info.audioDataOffset = headSize := by rw [hopened.info]; rfl
      rw [getAudioPosition_of_mode hmode, hplace, hoffset, Nat.sub_self]
    · have hread := readAudioLoop_delivers n n s (by rwa [hopened.channels]) (Nat.le_refl n)
      obtain ⟨behind, hsplit⟩ := audioStream_isPrefix hchannels
      have hpending := hopened.pending_eq hplace
      have hlength := congrArg List.length hsplit
      rw [List.length_append] at hlength
      rw [readAudioData_of_mode hmode]
      refine congrArg Except.ok (Prod.ext ?_ ?_)
      · rw [hread.bytes, hpending, ← hsplit, List.take_append_of_le_length hn]
      · rw [hread.error, hpending, if_pos (by omega)]

end

/-! ## Stereo files -/

section Stereo

/-- A stereo file whose head counts so many block groups, without metadata of its own. -/
def stereoFile (fileSize groups : Nat) (body : Bytes) : Bytes :=
  layout (createInfo 2822400 2 2 1)
    ⟨fileSize, 0, groups * 32768, groups * 8192 + dataChunkHeaderSize⟩ body

def stereoInfo (groups : Nat) : FileInfo :=
  { (createInfo 2822400 2 2 1).readBack (groups * 32768) with audioDataOffset := headSize }

/-- Its handle. -/
def stereoHandle (fileSize groups : Nat) (body : Bytes) : OpenHandle :=
  ⟨{ reset with mode := .read, info := stereoInfo groups },
    ⟨stereoFile fileSize groups body, headSize⟩⟩

variable {fileSize groups : Nat} {body : Bytes}

theorem stereo_open (body : Bytes) (hsize : fileSize < 2 ^ 64) (hgroups : groups < 1000)
    (hfill : groups * 8192 = (stereoInfo groups).audioDataSize) :
    IsOpen (stereoFile fileSize groups body) (stereoHandle fileSize groups body) := by
  have hinfo : (createInfo 2822400 2 2 1).Writable :=
    ⟨rfl, rfl, rfl, rfl, rfl, rfl, rfl⟩
  have hchunk : groups * 8192 + dataChunkHeaderSize ≤ maxReasonableChunkSize := by
    simp only [dataChunkHeaderSize, maxReasonableChunkSize]
    omega
  have hn : Numbers.Fit
      ⟨fileSize, 0, groups * 32768, groups * 8192 + dataChunkHeaderSize⟩ :=
    ⟨hsize, Nat.two_pow_pos 64, by simp only; omega, Nat.le_add_left _ _,
      hchunk.trans_lt (by decide)⟩
  have hsettle : settleInfo (groups * 8192 + dataChunkHeaderSize - dataChunkHeaderSize)
      (stereoInfo groups) = pure (stereoInfo groups) :=
    if_pos ((Nat.add_sub_cancel _ _).trans hfill)
  have hread : readFileStructure ⟨reset, ⟨layout (createInfo 2822400 2 2 1) _ body, 0⟩⟩ = _ :=
    readFileStructure_layout hinfo hn hchunk hsettle
  rw [readMetadataOf_zero] at hread
  left
  simp only [dsfOpen, stereoFile, hread]
  rfl

theorem stereo_body : (stereoFile fileSize groups body).drop headSize = body := by
  have hsplit : stereoFile fileSize groups body = stereoFile fileSize groups [] ++ body := by
    rw [stereoFile, stereoFile, layout_append, List.nil_append]
  have hlength : (stereoFile fileSize groups []).length = headSize := by
    rw [stereoFile, layout_length]
    rfl
  rw [hsplit, ← hlength, List.drop_left]

/-- What is stored is what the handle holds. -/
theorem stereo_stored (body : Bytes) (hsize : fileSize < 2 ^ 64) (hgroups : groups < 1000)
    (hfill : groups * 8192 = (stereoInfo groups).audioDataSize) :
    storedChannels (stereoFile fileSize groups body) = 2 ∧
      storedDataSize (stereoFile fileSize groups body) = groups * 8192 := by
  have hopened := (stereo_open body hsize hgroups hfill).opened.1
  have hinfo : stereoInfo groups = openedInfo (stereoFile fileSize groups body) := hopened.info
  have hdata : (stereoInfo groups).audioDataSize =
      storedDataSize (stereoFile fileSize groups body) := by
    rw [hinfo]
    rfl
  exact ⟨hopened.channels.symm, hdata.symm.trans hfill.symm⟩

theorem stereo_audioStream_length (hsize : fileSize < 2 ^ 64) (hgroups : groups < 1000)
    (hfill : groups * 8192 = (stereoInfo groups).audioDataSize)
    (hbody : body.length = groups * 8192) :
    (audioStream (stereoFile fileSize groups body)).length = groups * 8192 := by
  obtain ⟨hchannels, hdata⟩ := stereo_stored body hsize hgroups hfill
  have hbytes : audioStream (stereoFile fileSize groups body) = playback 2 body := by
    rw [audioStream, hchannels, hdata, stereo_body, List.take_of_length_le hbody.le]
  have hcount : groups * 8192 / 8192 = groups := Nat.mul_div_cancel groups (by decide)
  rw [hbytes, playback_length Nat.two_pos, hbody]
  exact congrArg (· * 8192) hcount

/-- A file that was created and never finalized. -/
theorem open_mirrors_iff_stereo : Mirrors (stereoFile 0 0 []) (stereoHandle 0 0 []) :=
  (open_mirrors_iff (stereo_open [] (by decide) (by decide) (by decide))).2
    ⟨by decide, by decide, Or.inl (by decide)⟩

/-- The size in the head of a finalized file is reported as 0. -/
theorem finished_not_mirrored :
    ¬ ∀ (content : Bytes) (s : OpenHandle), IsOpen content s → Mirrors content s := by
  intro h
  have hopen : IsOpen (stereoFile 92 0 []) (stereoHandle 92 0 []) :=
    stereo_open [] (by decide) (by decide) (by decide)
  obtain ⟨hopened, hmode⟩ := hopen.opened
  have hsize := ((hopened.mirrored_iff hmode).1 (h _ _ hopen).info).1
  exact absurd hsize (by decide)

end Stereo

end DsdNexus.Dsf
