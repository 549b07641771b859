import DsdNexus.Dsdiff.ChannelCodec
import DsdNexus.Dsdiff.MetadataBytes

/-! # DSDIFF: the layout of a file that is written

The head has FRM8, FVER and PROP and ends with the head of the sound data. `dsdiff_create`
writes it with sizes of zero; `dsdiff_finalize` writes the sizes where they belong, whatever
audio and metadata stand behind.
-/

namespace DsdNexus.Dsdiff

open Program FileProgram Endian

/-! ## The head -/

def frm8Head (chunkSize : Nat) : Bytes := chunkHead .frm8 chunkSize ++ ChunkType.dsd.fourcc

def fverBytes (version : UInt32) : Bytes := chunkHead .fver 4 ++ toBe 4 version.toNat

def propHead (chunkSize : Nat) : Bytes := chunkHead .prop chunkSize ++ ChunkType.snd.fourcc

def fsChunk (sampleRate : UInt32) : Bytes := chunkHead .fs 4 ++ toBe 4 sampleRate.toNat

def pstringBytes (string : Bytes) : Bytes :=
  toBe 1 (UInt8.ofNat (min string.length 255)).toNat ++
    (string.take (min string.length 255) ++ padBytes (min string.length 255 + 1))

def cmprChunk (type : AudioType) (name : Bytes) : Bytes :=
  chunkHead .cmpr (4 + 1 + name.length + if name.length % 2 = 0 then 1 else 0) ++
    ((if type = .dst then ChunkType.dst.fourcc else ChunkType.dsd.fourcc) ++ pstringBytes name)

def abssChunk (timecode : Timecode) : Bytes :=
  chunkHead .abss 8 ++ (toBe 2 timecode.hours.toNat ++ (toBe 1 timecode.minutes.toNat ++
    (toBe 1 timecode.seconds.toNat ++ toBe 4 timecode.samples.toNat)))

def lscoChunk (config : UInt16) : Bytes := chunkHead .lsco 2 ++ toBe 2 config.toNat

def frteChunk (frameCount : UInt32) (frameRate : UInt16) : Bytes :=
  chunkHead .frte 6 ++ (toBe 4 frameCount.toNat ++ toBe 2 frameRate.toNat)

/-- What the head of a file is about. -/
structure Properties where
  version : UInt32
  sampleRate : UInt32
  channelIds : List ChannelId
  audioType : AudioType
  timecode : Option Timecode
  loudspeaker : Option UInt16

/-- The chunks of PROP before the timecode. -/
def Properties.front (p : Properties) : Bytes :=
  fsChunk p.sampleRate ++ (storedChnl p.channelIds ++
    cmprChunk p.audioType (compressionName p.audioType))

def Properties.timecodeBytes (p : Properties) : Bytes := p.timecode.elim [] abssChunk

def Properties.loudspeakerBytes (p : Properties) : Bytes := p.loudspeaker.elim [] lscoChunk

/-- The chunks of PROP. -/
def Properties.prop (p : Properties) : Bytes :=
  p.front ++ (p.timecodeBytes ++ p.loudspeakerBytes)

/-- The file up to the sound data. -/
def Properties.head (p : Properties) (fileSize propSize : Nat) : Bytes :=
  frm8Head fileSize ++ (fverBytes p.version ++ (propHead propSize ++ p.prop))

/-- The head of the sound data, with FRTE where they are compressed. -/
def soundHead (type : AudioType) (size : Nat) (frameCount : UInt32) (frameRate : UInt16) : Bytes :=
  if type = .dst then chunkHead .dst size ++ frteChunk frameCount frameRate
  else chunkHead .dsd size

section Lengths

variable {p : Properties}

theorem frm8Head_length (chunkSize : Nat) : (frm8Head chunkSize).length = 16 := by
  rw [frm8Head, List.length_append, chunkHead_length (by decide)]
  rfl

theorem fverBytes_length (version : UInt32) : (fverBytes version).length = 16 := by
  rw [fverBytes, List.length_append, chunkHead_length (by decide), toBe_length]

theorem propHead_length (chunkSize : Nat) : (propHead chunkSize).length = 16 := by
  rw [propHead, List.length_append, chunkHead_length (by decide)]
  rfl

theorem fsChunk_length (sampleRate : UInt32) : (fsChunk sampleRate).length = 16 := by
  rw [fsChunk, List.length_append, chunkHead_length (by decide), toBe_length]

theorem abssChunk_length (timecode : Timecode) : (abssChunk timecode).length = 20 := by
  simp only [abssChunk, List.length_append, chunkHead_length (show ChunkType.abss ≠ .unknown by
    decide), toBe_length]

theorem frteChunk_length (frameCount : UInt32) (frameRate : UInt16) :
    (frteChunk frameCount frameRate).length = 18 := by
  simp only [frteChunk, List.length_append, chunkHead_length (show ChunkType.frte ≠ .unknown by
    decide), toBe_length]

theorem soundHead_length (type : AudioType) (size : Nat) (frameCount : UInt32)
    (frameRate : UInt16) :
    (soundHead type size frameCount frameRate).length = if type = .dst then 30 else 12 := by
  unfold soundHead
  split
  · rw [List.length_append, chunkHead_length (by decide), frteChunk_length]
  · rw [chunkHead_length (by decide)]

theorem head_length (p : Properties) (fileSize propSize : Nat) :
    (p.head fileSize propSize).length = 48 + p.prop.length := by
  simp only [Properties.head, List.length_append, frm8Head_length, fverBytes_length,
    propHead_length]
  omega

end Lengths

/-! ## Writing the chunks of the head -/

section Chunks

theorem chunkWriteFrm8Header_prints (chunkSize : Nat) :
    Prints (chunkWriteFrm8Header chunkSize) (frm8Head chunkSize) () :=
  (writeChunkHead_prints _ _).bind (ioWriteChunkId_prints _)

theorem chunkWriteFver_prints (version : UInt32) :
    Prints (chunkWriteFver version) (fverBytes version) () :=
  (writeChunkHead_prints _ _).bind (ioWriteUint32Be_prints _)

theorem chunkWritePropHeader_prints (chunkSize : Nat) :
    Prints (chunkWritePropHeader chunkSize) (propHead chunkSize) () :=
  (writeChunkHead_prints _ _).bind (ioWriteChunkId_prints _)

theorem chunkWriteFs_prints (sampleRate : UInt32) :
    Prints (chunkWriteFs sampleRate) (fsChunk sampleRate) () :=
  (writeChunkHead_prints _ _).bind (ioWriteUint32Be_prints _)

theorem ioWritePstring_prints (string : Bytes) :
    Prints (ioWritePstring string) (pstringBytes string) () :=
  (ioWriteUint8_prints _).bind <| (ioWriteBytes_prints _).bind <| writePadOf_prints _

theorem chunkWriteCmpr_prints (type : AudioType) (name : Bytes) :
    Prints (chunkWriteCmpr type name) (cmprChunk type name) () :=
  (writeChunkHead_prints _ _).bind <| (ioWriteChunkId_prints _).bind <| ioWritePstring_prints _

theorem chunkWriteAbss_prints (timecode : Timecode) :
    Prints (chunkWriteAbss timecode) (abssChunk timecode) () :=
  (writeChunkHead_prints _ _).bind <| (ioWriteUint16Be_prints _).bind <|
    (ioWriteUint8_prints _).bind <| (ioWriteUint8_prints _).bind <| ioWriteUint32Be_prints _

theorem chunkWriteLsco_prints (config : UInt16) :
    Prints (chunkWriteLsco config) (lscoChunk config) () :=
  (writeChunkHead_prints _ _).bind (ioWriteUint16Be_prints _)

theorem chunkWriteFrte_prints (frameCount : UInt32) (frameRate : UInt16) :
    Prints (chunkWriteFrte frameCount frameRate) (frteChunk frameCount frameRate) () :=
  (writeChunkHead_prints _ _).bind <| (ioWriteUint32Be_prints _).bind <|
    ioWriteUint16Be_prints _

end Chunks

/-! ## Creating a file -/

section Create

variable {h : Handle} {fileType : AudioType} {channelCount sampleBits : UInt16}
  {sampleRate : UInt32}

/-- What the head of a new file is about. -/
def createdProperties (h : Handle) (fileType : AudioType) (channelCount : UInt16)
    (sampleRate : UInt32) : Properties where
  version := h.formatVersion
  sampleRate := sampleRate
  channelIds := defaultChannelIds channelCount
  audioType := fileType
  timecode := if h.hasTimecode then some h.startTimecode else none
  loudspeaker := if h.hasLoudspeakerConfig then some h.loudspeakerConfig else none

/-- Where the timecode of a file stands. -/
def Properties.timecodePos (p : Properties) : Nat := 48 + p.front.length

/-- The handle of a file that is being written. Its head is about the properties. -/
structure Writing (p : Properties) (h : Handle) : Prop where
  mode : h.mode = .write
  version : h.formatVersion = p.version
  sampleRate : h.sampleRate = p.sampleRate
  channelCount : h.channelCount = UInt16.ofNat p.channelIds.length
  channelIds : h.channelIds = some p.channelIds
  isDstFormat : h.isDstFormat = decide (p.audioType = .dst)
  propChunkSize : h.propChunkSize = 4 + p.prop.length
  channelChunkPos : h.channelChunkPos = 64
  hasTimecode : h.hasTimecode = p.timecode.isSome
  startTimecode : ∀ timecode ∈ p.timecode,
    h.startTimecode = timecode ∧ h.timecodeChunkPos = p.timecodePos
  noTimecode : p.timecode = none → h.timecodeChunkPos = 0
  someChannels : 1 ≤ p.channelIds.length
  fewChannels : p.channelIds.length ≤ 1000
  channels : ∀ id ∈ p.channelIds, IsChannel id
  known : p.audioType ≠ .unknown

theorem defaultChannelIds_length (channelCount : UInt16) :
    (defaultChannelIds channelCount).length = channelCount.toNat := by
  unfold defaultChannelIds
  split
  · next h => rw [h]; rfl
  split
  · next h => rw [h]; rfl
  split
  · next h => rw [h]; rfl
  · rw [List.length_replicate]

theorem defaultChannelIds_channels (channelCount : UInt16) :
    ∀ id ∈ defaultChannelIds channelCount, IsChannel id := by
  unfold defaultChannelIds
  split
  · decide
  split
  · decide
  split
  · decide
  · intro id hid
    rw [(List.mem_replicate.1 hid).2]
    decide

/-- Where a chunk of the head went to. -/
theorem tell_then {α : Type} {k : Nat → Io α} {pre : Bytes} {r : Except Error α × ByteFile}
    (hrun : (tell >>= k) ⟨pre, pre.length⟩ = r) : k pre.length ⟨pre, pre.length⟩ = r := by
  rwa [bind_of_ok (tell_apply _)] at hrun

/-- PROP is written with its size left open. -/
theorem writeProp_at_end {pre : Bytes} (hpre : pre.length = 32)
    (hcount : 1 ≤ channelCount ∧ channelCount ≤ 1000) {g : Handle}
    (hids : g.channelIds = some (defaultChannelIds channelCount))
    (hchannels : g.channelCount = channelCount)
    {r : Nat × Nat × Nat} {f : ByteFile}
    (hrun : writeProp g fileType ⟨pre, pre.length⟩ = (.ok r, f)) :
    f = ⟨pre ++ (propHead 0 ++ (createdProperties g fileType channelCount g.sampleRate).prop),
        (pre ++ (propHead 0 ++
          (createdProperties g fileType channelCount g.sampleRate).prop)).length⟩ ∧
      f.content.length ≤ ByteFile.offMax ∧ fileType ≠ .unknown ∧ r.1 = 64 ∧
      r.2.1 = if g.hasTimecode then
        (createdProperties g fileType channelCount g.sampleRate).timecodePos else 0 := by
  subst hchannels
  have hlength := defaultChannelIds_length g.channelCount
  have hle : (defaultChannelIds g.channelCount).length ≤ 1000 := by
    rw [hlength]
    exact hcount.2
  have hofNat : UInt16.ofNat (defaultChannelIds g.channelCount).length = g.channelCount := by
    rw [hlength, UInt16.ofNat_toNat]
  have hchnl := chunkWriteChnl_prints (defaultChannelIds_channels g.channelCount) hle
  rw [hofNat, ← hids] at hchnl
  unfold writeProp at hrun
  obtain ⟨_, _, hprop, hrun⟩ := bind_eq_ok hrun
  obtain ⟨-, rfl, hroom⟩ := (chunkWritePropHeader_prints 0).at_end
    (by rw [hpre]; decide) hprop
  obtain ⟨_, _, hfs, hrun⟩ := bind_eq_ok hrun
  obtain ⟨-, rfl, hroom⟩ := (chunkWriteFs_prints _).at_end hroom hfs
  have hrun := tell_then hrun
  obtain ⟨_, _, hwrite, hrun⟩ := bind_eq_ok hrun
  obtain ⟨-, rfl, hroom⟩ := hchnl.at_end hroom hwrite
  obtain ⟨_, _, hcheck, hrun⟩ := bind_eq_ok hrun
  obtain ⟨hknown, rfl⟩ := require_eq_ok_iff.1 hcheck
  obtain ⟨_, _, hwrite, hrun⟩ := bind_eq_ok hrun
  obtain ⟨-, rfl, hroom⟩ := (chunkWriteCmpr_prints _ _).at_end hroom hwrite
  have hrun := tell_then hrun
  obtain ⟨_, _, hwrite, hrun⟩ := bind_eq_ok hrun
  obtain ⟨-, rfl, hroom⟩ := (Prints.when fun _ => chunkWriteAbss_prints _).at_end hroom hwrite
  have hrun := tell_then hrun
  obtain ⟨_, _, hwrite, hrun⟩ := bind_eq_ok hrun
  obtain ⟨-, rfl, hroom⟩ := (Prints.when fun _ => chunkWriteLsco_prints _).at_end hroom hwrite
  cases hrun
  have htimecode : (if g.hasTimecode = true then abssChunk g.startTimecode else []) =
      (createdProperties g fileType g.channelCount g.sampleRate).timecodeBytes := by
    unfold Properties.timecodeBytes createdProperties
    split <;> rfl
  have hspeaker : (if g.hasLoudspeakerConfig = true then lscoChunk g.loudspeakerConfig else []) =
      (createdProperties g fileType g.channelCount g.sampleRate).loudspeakerBytes := by
    unfold Properties.loudspeakerBytes createdProperties
    split <;> rfl
  have hcontent : pre ++ propHead 0 ++ fsChunk g.sampleRate ++
      storedChnl (defaultChannelIds g.channelCount) ++
      cmprChunk fileType (compressionName fileType) ++
      (if g.hasTimecode = true then abssChunk g.startTimecode else []) ++
      (if g.hasLoudspeakerConfig = true then lscoChunk g.loudspeakerConfig else []) =
      pre ++ (propHead 0 ++ (createdProperties g fileType g.channelCount g.sampleRate).prop) := by
    rw [htimecode, hspeaker]
    simp only [Properties.prop, Properties.front, createdProperties, List.append_assoc]
  rw [hcontent] at hroom ⊢
  refine ⟨rfl, hroom, hknown, ?_, ?_⟩
  · rw [List.length_append, List.length_append, hpre, propHead_length, fsChunk_length]
  · have hpos : (pre ++ propHead 0 ++ fsChunk g.sampleRate ++
        storedChnl (defaultChannelIds g.channelCount) ++
        cmprChunk fileType (compressionName fileType)).length =
        (createdProperties g fileType g.channelCount g.sampleRate).timecodePos := by
      simp only [Properties.timecodePos, Properties.front, createdProperties, List.length_append,
        hpre, propHead_length]
      omega
    simp only [hpos]

/-- Where the sound data of a file start. -/
def Properties.soundStart (p : Properties) : Nat := 60 + p.prop.length

/-- The handle of a file that has been created. -/
def createdHandle (h : Handle) (p : Properties) (channelCount : UInt16)
    (loudspeakerChunkPos : Nat) : Handle :=
  { h with
    mode := .write
    sampleFrameCount := 0
    propChunkSize := 4 + p.prop.length
    soundDataSize := if p.audioType = .dst then 18 else 0
    soundDataStartPos := p.soundStart
    soundDataEndPos := p.soundStart
    dstFrameCount := 0
    isDstFormat := p.audioType = .dst
    sampleRate := p.sampleRate
    channelCount := channelCount
    channelIds := some p.channelIds
    channelChunkPos := 64
    timecodeChunkPos := if h.hasTimecode then p.timecodePos else 0
    loudspeakerChunkPos := loudspeakerChunkPos }

theorem chunkWriteSndHeader_at_end {size : Nat} {pre : Bytes} {r : Nat × Nat} {f : ByteFile}
    (hpre : pre.length ≤ ByteFile.offMax)
    (hrun : chunkWriteSndHeader size ⟨pre, pre.length⟩ = (.ok r, f)) :
    f = ⟨pre ++ chunkHead .dsd size, (pre ++ chunkHead .dsd size).length⟩ ∧
      (pre ++ chunkHead .dsd size).length ≤ ByteFile.offMax ∧ r.1 = pre.length + 12 := by
  obtain ⟨_, _, hwrite, hrun⟩ := bind_eq_ok hrun
  obtain ⟨-, rfl, hroom⟩ := (writeChunkHead_prints _ _).at_end hpre hwrite
  have hrun := tell_then hrun
  cases hrun
  refine ⟨rfl, hroom, ?_⟩
  rw [List.length_append, chunkHead_length (by decide)]

theorem chunkWriteDstHeader_at_end {size : Nat} {pre : Bytes} {r : Nat × Nat} {f : ByteFile}
    (hpre : pre.length ≤ ByteFile.offMax)
    (hrun : chunkWriteDstHeader size ⟨pre, pre.length⟩ = (.ok r, f)) :
    f = ⟨pre ++ chunkHead .dst size, (pre ++ chunkHead .dst size).length⟩ ∧
      (pre ++ chunkHead .dst size).length ≤ ByteFile.offMax ∧ r.1 = pre.length + 12 := by
  obtain ⟨_, _, hwrite, hrun⟩ := bind_eq_ok hrun
  obtain ⟨-, rfl, hroom⟩ := (writeChunkHead_prints _ _).at_end hpre hwrite
  have hrun := tell_then hrun
  cases hrun
  refine ⟨rfl, hroom, ?_⟩
  rw [List.length_append, chunkHead_length (by decide)]

/-- A new file has its head and nothing else. -/
theorem create_eq_ok {h' : Handle} {f : ByteFile}
    (hcreate : create h fileType channelCount sampleBits sampleRate ⟨[], 0⟩ = (.ok h', f)) :
    let p := createdProperties h fileType channelCount sampleRate
    (1 ≤ channelCount ∧ channelCount ≤ 1000) ∧ fileType ≠ .unknown ∧
      (∃ loudspeakerChunkPos, h' = createdHandle h p channelCount loudspeakerChunkPos) ∧
      f.content = p.head 0 0 ++ soundHead fileType 0 0 h.dstFrameRate ∧
      f.pos = f.content.length ∧ f.content.length ≤ ByteFile.offMax := by
  intro p
  unfold create at hcreate
  obtain ⟨_, _, hcheck, hrun⟩ := bind_eq_ok hcreate
  obtain ⟨hcount, rfl⟩ := require_eq_ok_iff.1 hcheck
  obtain ⟨_, _, hcheck, hrun⟩ := bind_eq_ok hrun
  obtain ⟨-, rfl⟩ := require_eq_ok_iff.1 hcheck
  obtain ⟨_, _, hcheck, hrun⟩ := bind_eq_ok hrun
  obtain ⟨-, rfl⟩ := require_eq_ok_iff.1 hcheck
  obtain ⟨_, _, hwrite, hrun⟩ := bind_eq_ok hrun
  obtain ⟨-, rfl, hroom⟩ := (chunkWriteFrm8Header_prints 0).at_end (Nat.zero_le _) hwrite
  obtain ⟨_, _, hwrite, hrun⟩ := bind_eq_ok hrun
  obtain ⟨-, rfl, hroom⟩ := (chunkWriteFver_prints _).at_end hroom hwrite
  have hrun := tell_then hrun
  have hstart : ([] ++ frm8Head 0 ++ fverBytes h.formatVersion).length = 32 := by
    rw [List.length_append, List.length_append, frm8Head_length, fverBytes_length]
    rfl
  obtain ⟨⟨channelPos, timecodePos, loudspeakerPos⟩, f₁, hprop, hrun⟩ := bind_eq_ok hrun
  obtain ⟨rfl, hroom₁, hknown, hchannelPos, htimecodePos⟩ :=
    writeProp_at_end hstart hcount rfl rfl hprop
  have hproperties : ([] ++ frm8Head 0 ++ fverBytes h.formatVersion) ++ (propHead 0 ++ p.prop) =
      p.head 0 0 := by
    simp only [Properties.head, List.nil_append, List.append_assoc]
    rfl
  have hprop' : createdProperties { h with
      mode := .write, sampleFrameCount := 0, propChunkSize := 0, soundDataSize := 0,
      soundDataStartPos := 0, soundDataEndPos := 0, dstFrameCount := 0,
      isDstFormat := fileType ≠ .dsd, sampleRate := sampleRate, channelCount := channelCount,
      channelIds := some (defaultChannelIds channelCount) } fileType channelCount sampleRate =
      p := rfl
  simp only [hprop', hstart, hproperties] at hroom₁ hrun hchannelPos htimecodePos
  have hrun := tell_then hrun
  have hsize : (p.head 0 0).length - 32 - 12 = 4 + p.prop.length := by
    rw [head_length]
    omega
  have hpos : (p.head 0 0).length + 12 = p.soundStart := by
    rw [head_length, Properties.soundStart]
    omega
  simp only [hsize] at hrun
  refine ⟨hcount, hknown, ?_⟩
  by_cases hdsd : fileType = .dsd
  · rw [if_pos hdsd] at hrun
    obtain ⟨⟨startPos, endPos⟩, _, hwrite, hrun⟩ := bind_eq_ok hrun
    obtain ⟨rfl, hroom, hstartPos⟩ := chunkWriteSndHeader_at_end hroom₁ hwrite
    obtain rfl : startPos = p.soundStart := hstartPos.trans hpos
    have hdst : ¬ p.audioType = .dst := by
      show ¬ fileType = .dst
      rw [hdsd]
      decide
    have hhead : soundHead fileType 0 0 h.dstFrameRate = chunkHead .dsd 0 := if_neg hdst
    cases hrun
    rw [hhead]
    refine ⟨⟨loudspeakerPos, ?_⟩, rfl, rfl, hroom⟩
    simp only [createdHandle, hdst, if_false, hchannelPos, htimecodePos, hdsd, decide_false]
    rfl
  · rw [if_neg hdsd] at hrun
    obtain ⟨⟨startPos, endPos⟩, _, hwrite, hrun⟩ := bind_eq_ok hrun
    obtain ⟨rfl, hroom, hstartPos⟩ := chunkWriteDstHeader_at_end hroom₁ hwrite
    obtain rfl : startPos = p.soundStart := hstartPos.trans hpos
    obtain ⟨_, _, hwrite, hrun⟩ := bind_eq_ok hrun
    obtain ⟨-, rfl, hroom⟩ := (chunkWriteFrte_prints _ _).at_end hroom hwrite
    have hdst : p.audioType = .dst := by
      show fileType = .dst
      cases fileType
      case dsd => exact absurd rfl hdsd
      case dst => rfl
      case unknown => exact absurd rfl hknown
    have hhead : soundHead fileType 0 0 h.dstFrameRate =
        chunkHead .dst 0 ++ frteChunk 0 h.dstFrameRate := if_pos hdst
    cases hrun
    rw [hhead, ← List.append_assoc]
    refine ⟨⟨loudspeakerPos, ?_⟩, rfl, rfl, hroom⟩
    have hformat : decide (fileType ≠ .dsd) = true := decide_eq_true hdsd
    simp only [createdHandle, hdst, if_true, hchannelPos, htimecodePos, hformat]
    rfl

/-- The head of a new file is about what it was created with. -/
theorem createdHandle_writing (hcount : 1 ≤ channelCount ∧ channelCount ≤ 1000)
    (hknown : fileType ≠ .unknown) (loudspeakerChunkPos : Nat) :
    Writing (createdProperties h fileType channelCount sampleRate)
      (createdHandle h (createdProperties h fileType channelCount sampleRate) channelCount
        loudspeakerChunkPos) where
  mode := rfl
  version := rfl
  sampleRate := rfl
  channelCount := by
    show channelCount = UInt16.ofNat (defaultChannelIds channelCount).length
    rw [defaultChannelIds_length, UInt16.ofNat_toNat]
  channelIds := rfl
  isDstFormat := rfl
  propChunkSize := rfl
  channelChunkPos := rfl
  hasTimecode := by
    show h.hasTimecode = (if h.hasTimecode then some h.startTimecode else none).isSome
    cases h.hasTimecode <;> rfl
  startTimecode := by
    intro timecode htimecode
    have hsome : (if h.hasTimecode then some h.startTimecode else none) = some timecode :=
      htimecode
    split at hsome
    · next hhas =>
      cases hsome
      exact ⟨rfl, if_pos hhas⟩
    · cases hsome
  noTimecode := by
    intro hnone
    have hnone' : (if h.hasTimecode then some h.startTimecode else none) = none := hnone
    split at hnone'
    · cases hnone'
    · next hhas => exact if_neg hhas
  someChannels := by
    show 1 ≤ (defaultChannelIds channelCount).length
    rw [defaultChannelIds_length]
    exact hcount.1
  fewChannels := by
    show (defaultChannelIds channelCount).length ≤ 1000
    rw [defaultChannelIds_length]
    exact hcount.2
  channels := defaultChannelIds_channels channelCount
  known := hknown

end Create

/-! ## Finalizing it -/

section Finalize

variable {p : Properties} {h : Handle}

/-- A part of a file is written anew. -/
theorem over_at {m : Io Unit} {xs : Bytes} (hm : Writes m xs ()) (pre old post : Bytes)
    {content : Bytes} {pos : Nat} (hcontent : content = pre ++ (old ++ post))
    (hpos : pos = pre.length) (hold : old.length = xs.length)
    (hroom : content.length ≤ ByteFile.offMax) :
    m ⟨content, pos⟩ = (.ok (), ⟨pre ++ (xs ++ post), pos + xs.length⟩) := by
  subst hcontent hpos
  refine hm.over pre post hold ?_
  rw [List.length_append, List.length_append] at hroom
  omega

/-- What the head is about once the file is finalized. -/
def Properties.finalized (p : Properties) : Properties :=
  { p with timecode := p.timecode.map fun timecode => timecodeNormalize timecode p.sampleRate }

theorem timecodeBytes_finalized_length (p : Properties) :
    p.finalized.timecodeBytes.length = p.timecodeBytes.length := by
  unfold Properties.finalized Properties.timecodeBytes
  cases p.timecode with
  | none => rfl
  | some timecode => exact (abssChunk_length _).trans (abssChunk_length _).symm

theorem prop_finalized_length (p : Properties) :
    p.finalized.prop.length = p.prop.length := by
  have htimecode := timecodeBytes_finalized_length p
  simp only [Properties.prop, List.length_append, htimecode]
  rfl

/-- The handle once its file was finalized. -/
def finalizedHandle (p : Properties) (h : Handle) (endFilePos : Nat) : Handle :=
  { h with
    fileSizeAfterFinalize := endFilePos
    startTimecode := if h.hasTimecode then timecodeNormalize h.startTimecode h.sampleRate
      else h.startTimecode
    soundDataStartPos := p.soundStart
    soundDataEndPos := (p.soundStart + h.soundDataSize) % 2 ^ 64 }

theorem chunkWriteSndHeader_over (size : Nat) {old : Nat} {front rest : Bytes}
    (hroom : (front ++ (chunkHead .dsd old ++ rest)).length ≤ ByteFile.offMax) :
    chunkWriteSndHeader size ⟨front ++ (chunkHead .dsd old ++ rest), front.length⟩ =
      (.ok (front.length + 12, (front.length + 12 + size) % 2 ^ 64),
        ⟨front ++ (chunkHead .dsd size ++ rest), front.length + 12⟩) := by
  have hwrite := over_at (writeChunkHead_prints .dsd size).writes front _ rest rfl rfl
    ((chunkHead_length (by decide) old).trans (chunkHead_length (by decide) size).symm) hroom
  rw [chunkHead_length (by decide)] at hwrite
  rw [chunkWriteSndHeader, bind_of_ok hwrite, bind_of_ok (tell_apply _)]
  rfl

theorem chunkWriteDstHeader_over (size : Nat) {old : Nat} {front rest : Bytes}
    (hroom : (front ++ (chunkHead .dst old ++ rest)).length ≤ ByteFile.offMax) :
    chunkWriteDstHeader size ⟨front ++ (chunkHead .dst old ++ rest), front.length⟩ =
      (.ok (front.length + 12, (front.length + 12 + size) % 2 ^ 64),
        ⟨front ++ (chunkHead .dst size ++ rest), front.length + 12⟩) := by
  have hwrite := over_at (writeChunkHead_prints .dst size).writes front _ rest rfl rfl
    ((chunkHead_length (by decide) old).trans (chunkHead_length (by decide) size).symm) hroom
  rw [chunkHead_length (by decide)] at hwrite
  rw [chunkWriteDstHeader, bind_of_ok hwrite, bind_of_ok (tell_apply _)]
  rfl

/-- The head of the sound data is written anew behind PROP. -/
theorem rewriteSoundHeader_layout (h : Handle) (hmode : h.mode = .write)
    (hformat : h.isDstFormat = decide (p.audioType = .dst))
    (hprop : h.propChunkSize = 4 + p.prop.length) {front rest : Bytes} {size : Nat}
    {frameCount : UInt32} {frameRate : UInt16} (pos : Nat)
    (hfront : front.length = 48 + p.prop.length)
    (hroom : (front ++ (soundHead p.audioType size frameCount frameRate ++ rest)).length ≤
      ByteFile.offMax) :
    ∃ pos', rewriteSoundHeader h 32
        ⟨front ++ (soundHead p.audioType size frameCount frameRate ++ rest), pos⟩ =
        (.ok { h with
            soundDataStartPos := p.soundStart
            soundDataEndPos := (p.soundStart + h.soundDataSize) % 2 ^ 64 },
          ⟨front ++ (soundHead p.audioType h.soundDataSize h.dstFrameCount h.dstFrameRate ++
            rest), pos'⟩) := by
  have hlength := hroom
  rw [List.length_append] at hlength
  unfold ByteFile.offMax at hlength
  have hplace : (32 + 12 + h.propChunkSize) % 2 ^ 64 = front.length := by
    rw [hprop, hfront]
    omega
  have hstart : front.length + 12 = p.soundStart := by
    rw [hfront, Properties.soundStart]
    omega
  have hle : front.length ≤ ByteFile.offMax := by
    unfold ByteFile.offMax
    omega
  rw [rewriteSoundHeader, if_pos hmode, hplace, bind_of_ok (ioSeekSet_of_le hle _ _), hformat]
  by_cases hdst : p.audioType = .dst
  · unfold soundHead at hroom ⊢
    simp only [if_pos hdst, List.append_assoc, decide_eq_true hdst, if_true] at hroom ⊢
    have hwrite := chunkWriteDstHeader_over h.soundDataSize hroom
    have hroom' : (front ++ (chunkHead .dst h.soundDataSize ++
        (frteChunk frameCount frameRate ++ rest))).length ≤ ByteFile.offMax := by
      simp only [List.length_append, chunkHead_length (show ChunkType.dst ≠ .unknown by decide),
        frteChunk_length] at hroom ⊢
      exact hroom
    have hend : front.length + 12 = (front ++ chunkHead .dst h.soundDataSize).length := by
      rw [List.length_append, chunkHead_length (by decide)]
    have hfrte := over_at (chunkWriteFrte_prints h.dstFrameCount h.dstFrameRate).writes
      (front ++ chunkHead .dst h.soundDataSize) (frteChunk frameCount frameRate) rest
      (List.append_assoc ..).symm hend
      ((frteChunk_length _ _).trans (frteChunk_length _ _).symm) hroom'
    rw [List.append_assoc] at hfrte
    rw [bind_of_ok hwrite]
    simp only
    rw [bind_of_ok hfrte, hstart]
    exact ⟨_, rfl⟩
  · unfold soundHead at hroom ⊢
    simp only [if_neg hdst, decide_eq_false hdst, Bool.false_eq_true, if_false] at hroom ⊢
    have hwrite := chunkWriteSndHeader_over h.soundDataSize hroom
    rw [bind_of_ok hwrite, hstart]
    exact ⟨_, rfl⟩

theorem prop_append (p : Properties) (tail : Bytes) :
    p.prop ++ tail = fsChunk p.sampleRate ++ (storedChnl p.channelIds ++
      (cmprChunk p.audioType (compressionName p.audioType) ++
        (p.timecodeBytes ++ (p.loudspeakerBytes ++ tail)))) := by
  simp only [Properties.prop, Properties.front, List.append_assoc]

theorem head_append (p : Properties) (fileSize propSize : Nat) (tail : Bytes) :
    p.head fileSize propSize ++ tail = frm8Head fileSize ++ (fverBytes p.version ++
      (propHead propSize ++ (p.prop ++ tail))) := by
  simp only [Properties.head, List.append_assoc]

theorem head_append_length (p : Properties) (fileSize propSize : Nat) (tail : Bytes) :
    (p.head fileSize propSize ++ tail).length = 48 + p.prop.length + tail.length := by
  rw [List.length_append, head_length]

section Overwrites

variable {tail : Bytes} (hroom : 48 + p.prop.length + tail.length ≤ ByteFile.offMax)
  (fileSize propSize : Nat)

include hroom

theorem chunkWriteFrm8Header_head (newSize : Nat) :
    chunkWriteFrm8Header newSize ⟨p.head fileSize propSize ++ tail, 0⟩ =
      (.ok (), ⟨p.head newSize propSize ++ tail, 16⟩) := by
  rw [← head_append_length p fileSize propSize] at hroom
  have hwrite := over_at (chunkWriteFrm8Header_prints newSize).writes [] (frm8Head fileSize)
    (fverBytes p.version ++ (propHead propSize ++ (p.prop ++ tail)))
    (head_append p fileSize propSize tail) rfl
    ((frm8Head_length _).trans (frm8Head_length _).symm) hroom
  rw [frm8Head_length, List.nil_append, ← head_append] at hwrite
  exact hwrite

theorem chunkWriteFver_head :
    chunkWriteFver p.version ⟨p.head fileSize propSize ++ tail, 16⟩ =
      (.ok (), ⟨p.head fileSize propSize ++ tail, 32⟩) := by
  rw [← head_append_length p fileSize propSize] at hroom
  have hwrite := over_at (chunkWriteFver_prints p.version).writes (frm8Head fileSize)
    (fverBytes p.version) (propHead propSize ++ (p.prop ++ tail))
    (head_append p fileSize propSize tail) (frm8Head_length _).symm rfl hroom
  rw [fverBytes_length, ← head_append] at hwrite
  exact hwrite

theorem chunkWritePropHeader_head (newSize : Nat) :
    chunkWritePropHeader newSize ⟨p.head fileSize propSize ++ tail, 32⟩ =
      (.ok (), ⟨p.head fileSize newSize ++ tail, 48⟩) := by
  rw [← head_append_length p fileSize propSize] at hroom
  have hplace : 32 = (frm8Head fileSize ++ fverBytes p.version).length := by
    rw [List.length_append, frm8Head_length, fverBytes_length]
  have hwrite := over_at (chunkWritePropHeader_prints newSize).writes
    (frm8Head fileSize ++ fverBytes p.version) (propHead propSize) (p.prop ++ tail)
    ((head_append p fileSize propSize tail).trans (List.append_assoc ..).symm) hplace
    ((propHead_length _).trans (propHead_length _).symm) hroom
  rw [propHead_length, List.append_assoc, ← head_append] at hwrite
  exact hwrite

theorem chunkWriteChnl_head (hw : Writing p h) :
    ∃ pos, chunkWriteChnl h.channelCount h.channelIds ⟨p.head fileSize propSize ++ tail, 64⟩ =
      (.ok (), ⟨p.head fileSize propSize ++ tail, pos⟩) := by
  rw [← head_append_length p fileSize propSize] at hroom
  have hchnl := (chunkWriteChnl_prints hw.channels hw.fewChannels).writes
  rw [← hw.channelCount, ← hw.channelIds] at hchnl
  have hplace : 64 = (frm8Head fileSize ++ (fverBytes p.version ++ (propHead propSize ++
      fsChunk p.sampleRate))).length := by
    simp only [List.length_append, frm8Head_length, fverBytes_length, propHead_length,
      fsChunk_length]
  have hcontent : p.head fileSize propSize ++ tail = (frm8Head fileSize ++
      (fverBytes p.version ++ (propHead propSize ++ fsChunk p.sampleRate))) ++
      (storedChnl p.channelIds ++ (cmprChunk p.audioType (compressionName p.audioType) ++
        (p.timecodeBytes ++ (p.loudspeakerBytes ++ tail)))) := by
    rw [head_append, prop_append]
    simp only [List.append_assoc]
  have hwrite := over_at hchnl _ _ _ hcontent hplace rfl hroom
  rw [← hcontent] at hwrite
  exact ⟨_, hwrite⟩

theorem chunkWriteAbss_head {timecode : Timecode} (htimecode : p.timecode = some timecode) :
    ∃ pos, chunkWriteAbss (timecodeNormalize timecode p.sampleRate)
        ⟨p.head fileSize propSize ++ tail, p.timecodePos⟩ =
      (.ok (), ⟨p.finalized.head fileSize propSize ++ tail, pos⟩) := by
  rw [← head_append_length p fileSize propSize] at hroom
  have hold : p.timecodeBytes = abssChunk timecode := by
    rw [Properties.timecodeBytes, htimecode]
    rfl
  have hnew : p.finalized.timecodeBytes = abssChunk (timecodeNormalize timecode p.sampleRate) := by
    rw [Properties.timecodeBytes, Properties.finalized, htimecode]
    rfl
  have hplace : p.timecodePos = (frm8Head fileSize ++ (fverBytes p.version ++
      (propHead propSize ++ p.front))).length := by
    simp only [List.length_append, frm8Head_length, fverBytes_length, propHead_length,
      Properties.timecodePos]
    omega
  have hcontent : p.head fileSize propSize ++ tail = (frm8Head fileSize ++
      (fverBytes p.version ++ (propHead propSize ++ p.front))) ++
      (abssChunk timecode ++ (p.loudspeakerBytes ++ tail)) := by
    rw [head_append, Properties.prop, hold]
    simp only [List.append_assoc]
  have hcontent' : p.finalized.head fileSize propSize ++ tail = (frm8Head fileSize ++
      (fverBytes p.version ++ (propHead propSize ++ p.front))) ++
      (abssChunk (timecodeNormalize timecode p.sampleRate) ++ (p.loudspeakerBytes ++ tail)) := by
    rw [head_append, Properties.prop, hnew]
    simp only [List.append_assoc]
    rfl
  have hwrite := over_at (chunkWriteAbss_prints (timecodeNormalize timecode p.sampleRate)).writes
    _ _ _ hcontent hplace ((abssChunk_length _).trans (abssChunk_length _).symm) hroom
  rw [← hcontent'] at hwrite
  exact ⟨_, hwrite⟩

end Overwrites

theorem finalized_of_none (hnone : p.timecode = none) : p.finalized = p := by
  cases p
  cases hnone
  rfl

/-- The timecode of the file is written anew, where it has one. -/
theorem rewriteTimecode_layout (hw : Writing p h) {tail : Bytes}
    (hroom : 48 + p.prop.length + tail.length ≤ ByteFile.offMax) (fileSize propSize pos : Nat) :
    ∃ place pos',
      ioSeekSet h.timecodeChunkPos ⟨p.head fileSize propSize ++ tail, pos⟩ =
        (.ok (), ⟨p.head fileSize propSize ++ tail, place⟩) ∧
      when h.hasTimecode (chunkWriteAbss (timecodeNormalize h.startTimecode h.sampleRate))
          ⟨p.head fileSize propSize ++ tail, place⟩ =
        (.ok (), ⟨p.finalized.head fileSize propSize ++ tail, pos'⟩) := by
  have hfront : p.timecodePos ≤ 48 + p.prop.length := by
    simp only [Properties.timecodePos, Properties.prop, List.length_append]
    omega
  cases htimecode : p.timecode with
  | none =>
    have hhas : h.hasTimecode = false := by rw [hw.hasTimecode, htimecode]; rfl
    rw [hw.noTimecode htimecode, hhas, finalized_of_none htimecode]
    exact ⟨0, 0, ioSeekSet_of_le (Nat.zero_le _) _ _, rfl⟩
  | some timecode =>
    have hhas : h.hasTimecode = true := by rw [hw.hasTimecode, htimecode]; rfl
    obtain ⟨hstart, hplace⟩ := hw.startTimecode timecode htimecode
    obtain ⟨pos', hwrite⟩ := chunkWriteAbss_head hroom fileSize propSize htimecode
    rw [hplace, hhas, hstart, hw.sampleRate, when_of rfl]
    exact ⟨p.timecodePos, pos', ioSeekSet_of_le (by omega) _ _, hwrite⟩

/-- The head of a finalized file, with the sizes it has now; the rest stays. -/
theorem rewriteHead_layout (hw : Writing p h) {rest : Bytes} {size : Nat} (pos : Nat)
    {frameCount : UInt32} {frameRate : UInt16} {fileSize propSize endFilePos : Nat}
    (hend : 12 ≤ endFilePos ∧ endFilePos < 2 ^ 64)
    (hroom : (p.head fileSize propSize ++
      (soundHead p.audioType size frameCount frameRate ++ rest)).length ≤ ByteFile.offMax) :
    ∃ pos', rewriteHead h endFilePos
        ⟨p.head fileSize propSize ++ (soundHead p.audioType size frameCount frameRate ++ rest),
          pos⟩ =
      (.ok (finalizedHandle p h endFilePos),
        ⟨p.finalized.head (endFilePos - 12) (4 + p.prop.length) ++
          (soundHead p.audioType h.soundDataSize h.dstFrameCount h.dstFrameRate ++ rest),
          pos'⟩) := by
  have hsize : (endFilePos + 2 ^ 64 - 12) % 2 ^ 64 = endFilePos - 12 := by omega
  have hlength := hroom
  rw [head_append_length] at hlength
  have hfrm8 := chunkWriteFrm8Header_head hlength fileSize propSize (endFilePos - 12)
  have hfver := chunkWriteFver_head hlength (endFilePos - 12) propSize
  have hprop := chunkWritePropHeader_head hlength (endFilePos - 12) propSize (4 + p.prop.length)
  obtain ⟨pos₁, hchnl⟩ := chunkWriteChnl_head hlength (endFilePos - 12) (4 + p.prop.length) hw
  obtain ⟨place, pos₂, hseek, habss⟩ :=
    rewriteTimecode_layout hw hlength (endFilePos - 12) (4 + p.prop.length) pos₁
  have hnormal : (if h.hasTimecode then
      { h with startTimecode := timecodeNormalize h.startTimecode h.sampleRate } else h) =
      { h with startTimecode := if h.hasTimecode then
        timecodeNormalize h.startTimecode h.sampleRate else h.startTimecode } := by
    split <;> rfl
  have habss' : when h.hasTimecode (chunkWriteAbss (if h.hasTimecode then
      timecodeNormalize h.startTimecode h.sampleRate else h.startTimecode)) =
      when h.hasTimecode (chunkWriteAbss (timecodeNormalize h.startTimecode h.sampleRate)) := by
    cases h.hasTimecode <;> rfl
  have hlength' : (p.finalized.head (endFilePos - 12) (4 + p.prop.length)).length =
      48 + p.prop.length := by
    rw [head_length, prop_finalized_length]
  have hroom' : (p.finalized.head (endFilePos - 12) (4 + p.prop.length) ++
      (soundHead p.audioType size frameCount frameRate ++ rest)).length ≤ ByteFile.offMax := by
    rw [head_append_length, prop_finalized_length]
    exact hlength
  obtain ⟨pos₃, hsound⟩ := rewriteSoundHeader_layout { h with
    fileSizeAfterFinalize := endFilePos
    startTimecode := if h.hasTimecode then
      timecodeNormalize h.startTimecode h.sampleRate else h.startTimecode }
    hw.mode hw.isDstFormat hw.propChunkSize pos₂ hlength' hroom'
  rw [← habss'] at habss
  rw [← hw.version] at hfver
  rw [← hw.propChunkSize] at hprop hchnl hseek habss hsound ⊢
  rw [rewriteHead, hsize, bind_of_ok (ioSeekSet_of_le (Nat.zero_le _) _ _), bind_of_ok hfrm8,
    bind_of_ok hfver, bind_of_ok (tell_apply _), bind_of_ok hprop]
  have hplace : h.channelChunkPos ≤ ByteFile.offMax := by rw [hw.channelChunkPos]; decide
  rw [← hw.channelChunkPos] at hchnl
  rw [bind_of_ok (ioSeekSet_of_le hplace _ _), bind_of_ok hchnl, bind_of_ok hseek]
  dsimp only
  rw [hnormal]
  exact ⟨pos₃, (bind_of_ok habss).trans hsound⟩

/-- What is written when the file is finalized, with the audio and the metadata as they are. -/
def Properties.finalizedFile (p : Properties) (h : Handle) (audio : Bytes) (fileSize : Nat) :
    Bytes :=
  p.finalized.head (fileSize - 12) (4 + p.prop.length) ++
    (soundHead p.audioType h.soundDataSize h.dstFrameCount h.dstFrameRate ++
      (audio ++ (padBytes h.soundDataSize ++ metadataBytes h)))

theorem finalizedFile_length {content audio : Bytes} {size : Nat} {frameCount : UInt32}
    {frameRate : UInt16} {fileSize propSize : Nat}
    (hcontent : content = p.head fileSize propSize ++
      (soundHead p.audioType size frameCount frameRate ++ audio)) (total : Nat) :
    (p.finalizedFile h audio total).length =
      (content ++ (padBytes h.soundDataSize ++ metadataBytes h)).length := by
  rw [hcontent, List.append_assoc, List.append_assoc, Properties.finalizedFile,
    head_append_length, head_append_length, prop_finalized_length]
  simp only [List.length_append, soundHead_length]

/-- Where the metadata were written behind the audio, the head gets the sizes. -/
theorem finalize_of_metadata (hw : Writing p h) {content audio : Bytes} {size : Nat}
    {frameCount : UInt32} {frameRate : UInt16} {fileSize propSize : Nat}
    (hcontent : content = p.head fileSize propSize ++
      (soundHead p.audioType size frameCount frameRate ++ audio))
    (hmetadata : writeMetadata h ⟨content, content.length⟩ =
      (.ok (), ⟨content ++ (padBytes h.soundDataSize ++ metadataBytes h),
        (content ++ (padBytes h.soundDataSize ++ metadataBytes h)).length⟩))
    (hroom : (content ++ (padBytes h.soundDataSize ++ metadataBytes h)).length ≤
      ByteFile.offMax) {total : Nat}
    (htotal : (content ++ (padBytes h.soundDataSize ++ metadataBytes h)).length = total) :
    finalize h ⟨content, content.length⟩ =
      (.ok (finalizedHandle p h total), ⟨p.finalizedFile h audio total, total⟩) := by
  have hopen : h.mode ≠ .closed := by
    rw [hw.mode]
    decide
  have hwhole : content ++ (padBytes h.soundDataSize ++ metadataBytes h) =
      p.head fileSize propSize ++ (soundHead p.audioType size frameCount frameRate ++
        (audio ++ (padBytes h.soundDataSize ++ metadataBytes h))) := by
    rw [hcontent]
    simp only [List.append_assoc]
  rw [finalize, require_bind hopen, if_pos (Or.inl hw.mode), bind_of_ok hmetadata,
    bind_of_ok (tell_apply _), htotal]
  rw [htotal] at hroom
  rw [hwhole] at htotal ⊢
  have hbounds : 12 ≤ total ∧ total < 2 ^ 64 := by
    rw [head_append_length] at htotal
    unfold ByteFile.offMax at hroom
    omega
  obtain ⟨pos', hhead⟩ := rewriteHead_layout hw total hbounds (htotal ▸ hroom)
  rw [bind_of_ok hhead, bind_of_ok (ioSeekSet_of_le hroom _ _)]
  rfl

/-- A file that stands at its end is finalized: the metadata go behind the audio, and the head
has the sizes. -/
theorem finalize_layout (hw : Writing p h) {content audio : Bytes} {size : Nat}
    {frameCount : UInt32} {frameRate : UInt16} {fileSize propSize : Nat}
    (hcontent : content = p.head fileSize propSize ++
      (soundHead p.audioType size frameCount frameRate ++ audio))
    (hroom : content.length ≤ ByteFile.offMax) {h' : Handle} {f : ByteFile}
    (hrun : finalize h ⟨content, content.length⟩ = (.ok h', f)) :
    h' = finalizedHandle p h f.content.length ∧
      f.content = p.finalizedFile h audio f.content.length ∧
      f.pos = f.content.length ∧ f.content.length ≤ ByteFile.offMax := by
  have hopen := hrun
  obtain ⟨_, _, hcheck, hopen⟩ := bind_eq_ok hopen
  obtain ⟨-, rfl⟩ := require_eq_ok_iff.1 hcheck
  rw [if_pos (Or.inl hw.mode)] at hopen
  obtain ⟨_, f₁, hmetadata, -⟩ := bind_eq_ok hopen
  obtain ⟨rfl, hroom₁⟩ := writeMetadata_at_end hw.mode hroom hmetadata
  rw [finalize_of_metadata hw hcontent hmetadata hroom₁ rfl] at hrun
  have hlength := finalizedFile_length (h := h) hcontent
    (content ++ (padBytes h.soundDataSize ++ metadataBytes h)).length
  cases hrun
  dsimp only
  rw [hlength]
  exact ⟨rfl, rfl, rfl, hroom₁⟩

/-- A handle with nothing to write behind the audio but the index. -/
structure Plain (h : Handle) : Prop where
  diin : ¬ (h.hasEmid ∨ h.hasDiscArtist ∨ h.hasDiscTitle ∨ h.markers ≠ [])
  comments : h.commentCount = 0
  id3 : h.id3Tag = []
  tracks : h.trackId3Tags = []
  manufacturer : h.hasManufacturer = false

theorem metadataBytes_of_plain (hplain : Plain h) : metadataBytes h = indexChunk h := by
  rw [metadataBytes, diinBytes, if_neg hplain.diin, commentsBytes, fileId3Bytes,
    manufacturerBytes, hplain.tracks, if_neg (not_not.2 hplain.comments), if_neg (not_not.2 hplain.id3),
    hplain.manufacturer]
  exact List.append_nil _

theorem writeIndexes_prints (indexes : List Index) :
    Prints (writeIndexes indexes) (indexes.flatMap indexBytes) () := by
  induction indexes with
  | nil => exact Prints.pure ()
  | cons index indexes ih =>
    rw [List.flatMap_cons, indexBytes, List.append_assoc]
    exact (ioWriteUint64Be_prints index.offset).bind <|
      (ioWriteUint32Be_prints index.length).bind ih

theorem writeMetadata_of_plain (hplain : Plain h) :
    Prints (writeMetadata h) (padBytes h.soundDataSize ++ metadataBytes h) () := by
  have hdiin : when (isChunkWritable h h.diinChunkPos) (writeDiin h) = pure () := by
    rw [writeDiin, when_of_not hplain.diin]
    unfold when
    split <;> rfl
  have hcomments : ¬ (h.commentCount ≠ 0 ∧ isChunkWritable h h.commentChunkPos) :=
    fun hboth => hboth.1 hplain.comments
  have hid3 : ¬ (h.id3Tag ≠ [] ∧ isChunkWritable h h.id3ChunkPos) :=
    fun hboth => hboth.1 hplain.id3
  have hmanufacturer : ¬ (h.hasManufacturer ∧ isChunkWritable h h.manufacturerChunkPos) := by
    rw [hplain.manufacturer]
    exact fun hboth => Bool.false_ne_true hboth.1
  rw [metadataBytes_of_plain hplain, writeMetadata, hdiin, when_of_not hcomments,
    when_of_not hid3, hplain.tracks, when_of_not hmanufacturer]
  have hindex : Prints (writeIndex h) (indexChunk h) () :=
    Prints.when fun _ => (writeChunkHead_prints _ _).bind (writeIndexes_prints _)
  have hnothing : Prints (do pure (); pure (); writeTrackId3s []; pure () : Io Unit) [] () :=
    Prints.pure ()
  have hrest := hindex.bind (k := fun _ => do pure (); pure (); writeTrackId3s []; pure ()) hnothing
  rw [List.append_nil] at hrest
  exact (writePadOf_prints _).bind hrest

end Finalize

end DsdNexus.Dsdiff
