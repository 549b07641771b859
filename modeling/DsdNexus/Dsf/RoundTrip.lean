import DsdNexus.Dsf.AudioSeek
import DsdNexus.Dsf.Written
import DsdNexus.Lib.Grid

/-! # DSF: audio that is read back

A file that is created, given audio in any pieces and metadata in between, finalized and
closed. Opened again it has the numbers and the metadata it was given, and reads of any
sizes deliver the audio and the zero bytes that fill its last block group.
-/

namespace DsdNexus.Dsf

open Program FileProgram Endian Blocks
open Vfs (Column columnsOf interleave zeroColumn interleave_length columnsOf_length)

/-! ## Columns that are played -/

section Columns

variable {c : Nat} {columns block : List Column}

theorem bitReverse_bitReverse (b : UInt8) : bitReverse (bitReverse b) = b := by
  rw [← ffReverse_eq_bitReverse, ← ffReverse_eq_bitReverse, ffReverse_ffReverse]

/-- The byte-interleaved audio of columns. -/
def played (columns : List Column) : Bytes := (columns.map (List.map bitReverse)).flatten

theorem played_append (a b : List Column) : played (a ++ b) = played a ++ played b := by
  simp [played]

theorem forall_played (h : ∀ column ∈ columns, column.length = c) :
    ∀ row ∈ columns.map (List.map bitReverse), row.length = c := by
  intro row hrow
  obtain ⟨column, hcolumn, rfl⟩ := List.mem_map.1 hrow
  rw [List.length_map, h column hcolumn]

theorem played_length (h : ∀ column ∈ columns, column.length = c) :
    (played columns).length = columns.length * c := by
  rw [played, Grid.flatten_length (forall_played h), List.length_map]

/-- Byte `ch` of the column `i`, with its bits reversed. -/
theorem played_getD (h : ∀ column ∈ columns, column.length = c) {i ch : Nat}
    (hi : i < columns.length) (hch : ch < c) :
    (played columns).getD (i * c + ch) 0 = bitReverse ((columns.getD i []).getD ch 0) := by
  have hcolumn : ch < (columns.getD i []).length := by
    rw [List.getD_eq_getElem _ _ hi, h _ (List.getElem_mem hi)]
    exact hch
  rw [played, Grid.getD_flatten (forall_played h) i hch, Grid.getD_map hi _ [],
    Grid.getD_map hcolumn _ 0]

/-- The columns of an input play the input. -/
theorem played_columnsOf {input : Bytes} (hwhole : input.length % c = 0) :
    played (columnsOf c input) = input := by
  have hcolumns : ∀ column ∈ columnsOf c input, column.length = c := by
    intro column hcolumn
    obtain ⟨i, -, rfl⟩ := List.mem_map.1 hcolumn
    simp
  have hlength : input.length = input.length / c * c :=
    (Nat.div_mul_cancel (Nat.dvd_of_mod_eq_zero hwhole)).symm
  refine Grid.eq_of_cells (w := c) ?_ hlength 0 fun i hi ch hch => ?_
  · rw [played_length hcolumns, columnsOf_length]
  · have hrow : i < (columnsOf c input).length := by rwa [columnsOf_length]
    rw [played_getD hcolumns hrow hch, columnsOf, Grid.getD_map (by simpa using hi) _ 0,
      Grid.getD_map (by simpa using hch) _ 0, bitReverse_bitReverse]
    simp [List.getD, hi, hch]

theorem played_zeroColumns (c n : Nat) :
    played (List.replicate n (zeroColumn c)) = List.replicate (n * c) 0 := by
  have hzero : bitReverse 0 = 0 := by decide
  simp [played, zeroColumn, hzero]

/-- A block written channel after channel is converted back into its columns. -/
theorem convertBlockToByteInterleaved_interleave (hlength : block.length = blockSizePerChannel)
    (hcolumns : ∀ column ∈ block, column.length = c) :
    convertBlockToByteInterleaved (interleave c block) c = played block := by
  have hrows : ∀ row ∈ (List.range c).map fun ch => block.map fun column => column.getD ch 0,
      row.length = blockSizePerChannel := by
    intro row hrow
    obtain ⟨ch, -, rfl⟩ := List.mem_map.1 hrow
    rw [List.length_map, hlength]
  refine Grid.eq_of_cells (w := c) (n := blockSizePerChannel) ?_ ?_ 0 fun i hi ch hch => ?_
  · exact convertBlockToByteInterleaved_length _ _
  · rw [played_length hcolumns, hlength]
  · have hplace : i * c + ch < blockSizePerChannel * c :=
      Nat.lt_of_lt_of_le (Nat.add_lt_add_left hch _)
        (by rw [← Nat.succ_mul]; exact Nat.mul_le_mul_right c hi)
    have hmod : (i * c + ch) % c = ch := by
      rw [Nat.add_comm, Nat.add_mul_mod_self_right, Nat.mod_eq_of_lt hch]
    have hdiv : (i * c + ch) / c = i := by
      rw [Nat.add_comm, Nat.add_mul_div_right _ _ (by omega), Nat.div_eq_of_lt hch, Nat.zero_add]
    have hbyte : (interleave c block).getD (ch * blockSizePerChannel + i) 0 =
        (block.getD i []).getD ch 0 := by
      rw [interleave, List.flatMap_def, Grid.getD_flatten hrows ch hi,
        Grid.getD_map (by simpa using hch) _ 0, Grid.getD_map (by omega) _ []]
      simp [List.getD, hch]
    rw [played_getD hcolumns (by omega) hch, ← hbyte, ← ffReverse_eq_bitReverse,
      convertBlockToByteInterleaved, Grid.getD_map (by simpa using hplace) _ 0]
    have hself : (List.range (blockSizePerChannel * c)).getD (i * c + ch) 0 = i * c + ch := by
      simp [List.getD, hplace]
    rw [hself, hmod, hdiv]

/-- Blocks that were written are played. -/
theorem playback_emitted (hc : 0 < c) {blocks : List (List Column)}
    (h : ∀ block ∈ blocks, block.length = blockSizePerChannel ∧
      ∀ column ∈ block, column.length = c) :
    playback c (emitted c blocks) = played blocks.flatten := by
  induction blocks with
  | nil => exact playback_of_short (groupSize_pos hc)
  | cons block blocks ih =>
    obtain ⟨hlength, hcolumns⟩ := h block (.head _)
    have hsize : (interleave c block).length = groupSize c := by
      rw [interleave_length, hlength, groupSize, Nat.mul_comm]
    have hsplit : emitted c (block :: blocks) = interleave c block ++ emitted c blocks :=
      List.flatMap_cons
    rw [hsplit, playback_of_le hc (by rw [List.length_append]; omega), ← hsize, List.take_left,
      List.drop_left, ih fun b hb => h b (.tail _ hb),
      convertBlockToByteInterleaved_interleave hlength hcolumns, List.flatten_cons, played_append]

theorem columnsOf_append {a : Bytes} (ha : a.length % c = 0) (b : Bytes) :
    columnsOf c (a ++ b) = columnsOf c a ++ columnsOf c b := by
  have hwhole : a.length / c * c = a.length := Nat.div_mul_cancel (Nat.dvd_of_mod_eq_zero ha)
  have hcount : (a ++ b).length / c = a.length / c + b.length / c := by
    rw [List.length_append, Nat.add_div_of_dvd_right (Nat.dvd_of_mod_eq_zero ha)]
  rw [columnsOf, hcount, List.range_add, List.map_append, List.map_map]
  congr 1
  · apply List.map_congr_left
    intro i hi
    apply List.map_congr_left
    intro ch hch
    have hrow := Nat.mul_le_mul_right c (List.mem_range.1 hi)
    rw [hwhole, Nat.succ_mul] at hrow
    have hlt := List.mem_range.1 hch
    rw [List.getD_append _ _ _ _ (by omega)]
  · apply List.map_congr_left
    intro i _
    apply List.map_congr_left
    intro ch _
    have hplace : (a.length / c + i) * c + ch = a.length + (i * c + ch) := by
      rw [Nat.add_mul, hwhole, Nat.add_assoc]
    rw [hplace, List.getD_append_right _ _ _ _ (by omega), Nat.add_sub_cancel_left]

/-- The padding follows the columns. -/
theorem paddedBlocks_flatten {α : Type} {n : Nat} (hn : 0 < n) (z : α) (l : List α) :
    ∃ k, (paddedBlocks n z l).flatten = l ++ List.replicate k z := by
  have hall := flatten_fullBlocks_append_remainder hn l
  rw [paddedBlocks, List.flatten_append, paddedRemainder]
  by_cases hnone : remainder n l = []
  · rw [hnone, List.append_nil] at hall
    exact ⟨0, by rw [if_pos hnone, hall]; simp⟩
  · refine ⟨n - (remainder n l).length, ?_⟩
    rw [if_neg hnone, List.flatten_singleton, ← List.append_assoc, hall]

/-! ## Audio in whole block groups -/

/-- Audio and the zero bytes that fill its last block group. -/
def paddedAudio (channelCount : Nat) (audio : Bytes) : Bytes :=
  audio ++ List.replicate (roundUp (groupSize channelCount) audio.length - audio.length) 0

theorem paddedAudio_length (hc : 0 < c) (audio : Bytes) :
    (paddedAudio c audio).length = roundUp (groupSize c) audio.length := by
  have hle := le_roundUp (groupSize_pos hc) audio.length
  rw [paddedAudio, List.length_append, List.length_replicate]
  omega

theorem audioBytes_columnsOf_length (hc : 0 < c) {audio : Bytes} (hwhole : audio.length % c = 0) :
    (audioBytes c (columnsOf c audio)).length = roundUp (groupSize c) audio.length := by
  have hcount : audio.length / c * c = audio.length :=
    Nat.div_mul_cancel (Nat.dvd_of_mod_eq_zero hwhole)
  have hround : audio.length + groupSize c - 1 =
      c * (audio.length / c + blockSizePerChannel - 1) + (c - 1) := by
    have hblock : 0 < blockSizePerChannel := by decide
    have hlast : audio.length / c + blockSizePerChannel - 1 + 1 =
        audio.length / c + blockSizePerChannel :=
      Nat.sub_add_cancel (Nat.le_add_left_of_le hblock)
    have hpred : c * (audio.length / c + blockSizePerChannel - 1) + c =
        audio.length + groupSize c := by
      rw [← Nat.mul_succ, Nat.succ_eq_add_one, hlast, Nat.mul_add, Nat.mul_comm c (_ / c), hcount,
        groupSize, Nat.mul_comm blockSizePerChannel]
    omega
  rw [audioBytes_length, columnsOf_length, roundUp, hround, groupSize,
    Nat.mul_comm blockSizePerChannel c, ← Nat.div_div_eq_div_mul, Nat.mul_add_div hc,
    Nat.div_eq_of_lt (show c - 1 < c by omega), Nat.add_zero]

/-- What was written of the columns of the audio is played as the audio. -/
theorem playback_audioBytes (hc : 0 < c) {audio : Bytes} (hwhole : audio.length % c = 0) :
    playback c (audioBytes c (columnsOf c audio)) = paddedAudio c audio := by
  obtain ⟨k, hflatten⟩ := paddedBlocks_flatten (n := blockSizePerChannel) (by decide)
    (zeroColumn c) (columnsOf c audio)
  have hcolumns : ∀ column ∈ columnsOf c audio ++ List.replicate k (zeroColumn c),
      column.length = c := by
    intro column hcolumn
    rcases List.mem_append.1 hcolumn with hcolumn | hcolumn
    · obtain ⟨i, -, rfl⟩ := List.mem_map.1 hcolumn
      simp
    · rw [(List.mem_replicate.1 hcolumn).2, zeroColumn, List.length_replicate]
  have hplayed : playback c (audioBytes c (columnsOf c audio)) =
      audio ++ List.replicate (k * c) 0 := by
    rw [audioBytes, playback_emitted hc, hflatten, played_append, played_columnsOf hwhole,
      played_zeroColumns]
    intro block hblock
    refine ⟨length_of_mem_paddedBlocks (by decide) hblock, fun column hcolumn => ?_⟩
    exact hcolumns column (hflatten ▸ List.mem_flatten_of_mem hblock hcolumn)
  have hlength := congrArg List.length hplayed
  rw [playback_length hc, audioBytes_columnsOf_length hc hwhole,
    Nat.div_mul_cancel (dvd_roundUp _ _), List.length_append, List.length_replicate] at hlength
  rw [hplayed, paddedAudio]
  congr 2
  omega

end Columns

/-! ## A finished file -/

section Finished

variable {info : FileInfo} {audio tag : Bytes} {samples : Nat}

/-- A handle on a file with this format, so many samples, this audio and these metadata. -/
structure ReadsBack (info : FileInfo) (samples : Nat) (stream tag : Bytes) (s : OpenHandle) :
    Prop where
  format : SameFormat s.handle.info { info with sampleCount := samples }
  audioDataSize : s.handle.info.audioDataSize = stream.length
  metadata : s.handle.metadata = tag
  start : (seekToAudioStart s).1 = .ok ()
  reads : ∀ ns, total ns ≤ stream.length →
    readAll ns (seekToAudioStart s).2 = (served stream ns).map .ok

theorem uint64Mul_of_lt {a b : Nat} (h : a * b < 2 ^ 64) : uint64Mul a b = some (a * b) := by
  refine if_neg ?_
  rintro ⟨ha, hlt⟩
  have hmul := (Nat.div_lt_iff_lt_mul (Nat.pos_of_ne_zero ha)).1 hlt
  rw [Nat.mul_comm] at hmul
  omega

/-- The samples of whole bytes take the space of the blocks that hold them. -/
theorem calculateAudioDataSize_of_bytes {channelCount : UInt32} {n size : Nat}
    (hc : 0 < channelCount.toNat)
    (hblocks : (n + blockSizePerChannel - 1) / blockSizePerChannel *
      (blockSizePerChannel * channelCount.toNat) = size)
    (hsize : size ≤ maxReasonableChunkSize) :
    calculateAudioDataSize channelCount (n * 8) 1 = size := by
  have hmax : maxReasonableChunkSize = 10737418240 := rfl
  have hround : n ≤ (n + blockSizePerChannel - 1) / blockSizePerChannel * blockSizePerChannel :=
    le_roundUp (by decide) n
  rw [← Nat.mul_assoc] at hblocks
  have hbytes : (n + blockSizePerChannel - 1) / blockSizePerChannel * blockSizePerChannel ≤ size :=
    (Nat.le_mul_of_pos_right _ hc).trans hblocks.le
  have hn : (n * 8 + 8 - 1) / 8 = n := by omega
  have hfits : ¬ 2 ^ 64 - 1 - blockSizePerChannel + 1 < n := by
    simp only [blockSizePerChannel]
    omega
  have hinner := uint64Mul_of_lt (a := (n + blockSizePerChannel - 1) / blockSizePerChannel)
    (b := blockSizePerChannel) (by omega)
  have houter := uint64Mul_of_lt (hblocks.trans_lt (by omega : size < 2 ^ 64))
  rw [calculateAudioDataSize, if_pos rfl, if_neg (by omega)]
  simp only [hn, if_neg hfits, hinner, houter, Option.getD_some]
  exact hblocks

/-- The record keeps its samples where they are those of the data, or not counted anew. -/
theorem settleInfo_of_fit {size : Nat} {info : FileInfo}
    (h : info.bitsPerSample ≠ 1 ∨ size = info.audioDataSize) :
    settleInfo size info = pure { info with audioDataSize := size } := by
  unfold settleInfo
  by_cases hsize : size = info.audioDataSize
  · rw [if_pos hsize, hsize]
  · rw [if_neg hsize, if_neg (h.resolve_right hsize)]

theorem layout_drop (info : FileInfo) (n : Numbers) (body : Bytes) :
    (layout info n body).drop headSize = body := by
  have hhead := layout_length info n []
  rw [List.length_nil, Nat.add_zero] at hhead
  have hsplit := layout_append info n [] body
  rw [List.nil_append] at hsplit
  rw [← hsplit, ← hhead, List.drop_left]

theorem finished_fit {n : Nat}
    (hchunk : dataChunkHeaderSize + audio.length ≤ maxReasonableChunkSize)
    (htag : tag.length ≤ maxReasonableMetadataSize) (hn : n < 2 ^ 64) :
    (finished audio tag n).Fit := by
  have hmax : maxReasonableChunkSize = 10737418240 := rfl
  have hmetadata : maxReasonableMetadataSize = 104857600 := rfl
  have hhead : headSize = 92 := rfl
  have hoffset : offsetOf tag (headSize + audio.length) ≤ headSize + audio.length := by
    rw [offsetOf]
    split <;> omega
  exact
    { fileSize := by simp only [finished]; omega
      metadataOffset := by simp only [finished]; omega
      sampleCount := hn
      headed := Nat.le_add_right _ _
      chunkSize := by simp only [finished]; omega }

/-- The handle of a finished file, before the mode is set. -/
def reopened (info : FileInfo) (samples : Nat) (audio tag : Bytes) : Handle :=
  { reset with
    info := { info.readBack samples with
      audioDataOffset := headSize, audioDataSize := audio.length }
    metadata := tag }

/-- Where its file then stands: behind the metadata that were read. -/
def reopenedAt (audio tag : Bytes) : Nat :=
  if tag = [] then headSize else headSize + (audio ++ tag).length

/-- A finished file is opened with what it holds. -/
theorem finished_open (hinfo : info.Writable)
    (hchunk : dataChunkHeaderSize + audio.length ≤ maxReasonableChunkSize)
    (htag : tag.length ≤ maxReasonableMetadataSize) (hsamples64 : samples < 2 ^ 64)
    (hsamples : info.bitsPerSample ≠ 1 ∨
      audio.length = calculateAudioDataSize info.channelCount samples info.bitsPerSample) :
    readFileStructure ⟨reset, ⟨layout info (finished audio tag samples) (audio ++ tag), 0⟩⟩ =
      (.ok (), ⟨reopened info samples audio tag,
        ⟨layout info (finished audio tag samples) (audio ++ tag), reopenedAt audio tag⟩⟩) := by
  have hfit := finished_fit hchunk htag hsamples64
  have hsize : (finished audio tag samples).chunkSize - dataChunkHeaderSize = audio.length :=
    Nat.add_sub_cancel_left _ _
  have hsettle : settleInfo ((finished audio tag samples).chunkSize - dataChunkHeaderSize)
      { info.readBack (finished audio tag samples).sampleCount with audioDataOffset := headSize } =
      pure { info.readBack samples with
        audioDataOffset := headSize, audioDataSize := audio.length } := by
    rw [hsize]
    exact settleInfo_of_fit hsamples
  rw [readFileStructure_layout hinfo hfit hchunk hsettle]
  by_cases hnone : tag = []
  · have hoffset : (finished audio tag samples).metadataOffset = 0 := if_pos hnone
    rw [hoffset, readMetadataOf_zero, hnone]
    rfl
  · have hpre := layout_length info (finished audio tag samples) audio
    have hoffset : (finished audio tag samples).metadataOffset =
        (layout info (finished audio tag samples) audio).length :=
      (if_neg hnone).trans hpre.symm
    have hroom : (layout info (finished audio tag samples) audio ++ tag).length ≤
        ByteFile.offMax := by
      have hmax : maxReasonableChunkSize + maxReasonableMetadataSize + headSize ≤
          ByteFile.offMax := by decide
      rw [List.length_append, hpre]
      omega
    have hne : layout info (finished audio tag samples) audio ≠ [] := by
      rw [← List.length_pos_iff, hpre, headSize]
      omega
    rw [← layout_append, hoffset, readMetadataOf_end hne hnone htag hroom
      (show FileMode.closed ≠ .write by decide), layout_append, layout_length, reopenedAt,
      if_neg hnone]
    rfl

theorem Opened.audioDataSize {content : Bytes} {s : OpenHandle} (h : Opened content s) :
    s.handle.info.audioDataSize = storedDataSize content := by
  rw [h.info]
  rfl

theorem finished_readsBack (hinfo : info.Writable)
    (hchunk : dataChunkHeaderSize + audio.length ≤ maxReasonableChunkSize)
    (hgroups : groupSize info.channelCount.toNat ∣ audio.length)
    (htag : tag.length ≤ maxReasonableMetadataSize) (hsamples64 : samples < 2 ^ 64)
    (hsamples : info.bitsPerSample ≠ 1 ∨
      audio.length = calculateAudioDataSize info.channelCount samples info.bitsPerSample) :
    ∃ s, dsfOpen (layout info (finished audio tag samples) (audio ++ tag)) = .ok s ∧
      ReadsBack info samples (playback info.channelCount.toNat audio) tag s := by
  have hread := finished_open hinfo hchunk htag hsamples64 hsamples
  have hbody := layout_drop info (finished audio tag samples) (audio ++ tag)
  generalize layout info (finished audio tag samples) (audio ++ tag) = content at hread hbody ⊢
  have hopen : dsfOpen content =
      .ok ⟨{ reopened info samples audio tag with mode := .read },
        ⟨content, reopenedAt audio tag⟩⟩ := by
    simp only [dsfOpen, hread]
  obtain ⟨hopened, hmode⟩ := IsOpen.opened (.inl hopen)
  have hchannels : info.channelCount.toNat = storedChannels content := hopened.channels
  have hsize : audio.length = storedDataSize content := hopened.audioDataSize
  have hc : 0 < info.channelCount.toNat := hopened.storedChannels_pos.trans_eq hchannels.symm
  have hstream : audioStream content = playback info.channelCount.toNat audio := by
    rw [audioStream, ← hchannels, hbody, ← hsize, List.take_left' rfl]
  refine ⟨_, hopen, ?_⟩
  constructor
  case format => exact ⟨rfl, rfl, rfl, rfl, rfl, rfl, rfl, rfl⟩
  case audioDataSize =>
    rw [playback_length hc, Nat.div_mul_cancel hgroups]
    rfl
  case metadata => rfl
  case start => rw [hopened.seekToAudioStart_eq hmode]
  case reads =>
    intro ns hns
    have hprefix := audioStream_isPrefix hopened.storedChannels_pos
    rw [← hstream] at hns ⊢
    exact ((stopsAtEnd_iff_served (.inl hopen) ns).2
      ((servedOrFailed_eq_served_iff hprefix ns).2 hns)).2

end Finished

/-! ## Writing a file -/

/-- A call on a file that is being written. -/
inductive WriteOp where
  | audio (buffer : Bytes)
  | metadata (buffer : Bytes)

def WriteOp.run : WriteOp → OnHandle Unit
  | .audio buffer => do
    let _ ← writeAudioData buffer
    pure ()
  | .metadata buffer => writeMetadata buffer

/-- The calls in sequence, up to the first that fails. -/
def runOps : List WriteOp → OnHandle Unit
  | [] => pure ()
  | op :: ops => do
    op.run
    runOps ops

/-- What the library takes: whole columns, and metadata that are there and not too long. -/
def WriteOp.Accepted (channelCount : Nat) : WriteOp → Prop
  | .audio buffer => buffer.length % channelCount = 0
  | .metadata buffer => buffer ≠ [] ∧ buffer.length ≤ maxReasonableMetadataSize

/-- The audio of the calls, end to end. -/
def audioOf : List WriteOp → Bytes
  | [] => []
  | .audio buffer :: ops => buffer ++ audioOf ops
  | .metadata _ :: ops => audioOf ops

/-- The metadata given last; `tag` where there are none. -/
def tagOf : List WriteOp → Bytes → Bytes
  | [], tag => tag
  | .audio _ :: ops, tag => tagOf ops tag
  | .metadata buffer :: ops, _ => tagOf ops buffer

section Write

variable {info : FileInfo} {audio tag : Bytes} {s : OpenHandle}

/-- A handle in write mode that has been given this audio and these metadata. -/
structure Given (info : FileInfo) (audio tag : Bytes) (s : OpenHandle) : Prop where
  holds : Holds info (columnsOf info.channelCount.toNat audio) s
  whole : audio.length % info.channelCount.toNat = 0
  metadata : s.handle.metadata = tag
  short : tag.length ≤ maxReasonableMetadataSize
  samplesWritten : s.handle.samplesWritten =
    audio.length / info.channelCount.toNat * samplesPerByte info
  sampleCount : s.handle.info.sampleCount = s.handle.samplesWritten

theorem samplesPerByte_le (info : FileInfo) : samplesPerByte info ≤ 8 := by
  rw [samplesPerByte]
  split <;> omega

theorem Given.write (h : Given info audio tag s) {buffer : Bytes}
    (hwhole : buffer.length % info.channelCount.toNat = 0)
    (hsize : audio.length + buffer.length ≤ maxReasonableChunkSize) :
    ∃ s', (WriteOp.audio buffer).run s = (.ok (), s') ∧ Given info (audio ++ buffer) tag s' := by
  have hmax : maxReasonableChunkSize = 10737418240 := rfl
  have hoff : headSize + maxReasonableChunkSize ≤ ByteFile.offMax := by decide
  have hsum : (audio.length + buffer.length) / info.channelCount.toNat =
      audio.length / info.channelCount.toNat + buffer.length / info.channelCount.toNat :=
    Nat.add_div_of_dvd_right (Nat.dvd_of_mod_eq_zero h.whole)
  have htotal : headSize + ((columnsOf info.channelCount.toNat audio).length +
      buffer.length / info.channelCount.toNat) / blockSizePerChannel *
        (blockSizePerChannel * info.channelCount.toNat) ≤
      headSize + (audio.length + buffer.length) := by
    rw [columnsOf_length, ← hsum, ← Nat.mul_assoc]
    refine Nat.add_le_add_left ?_ _
    exact (Nat.mul_le_mul_right _ (Nat.div_mul_le_self _ _)).trans (Nat.div_mul_le_self _ _)
  rcases writeAudioData_outcome h.holds hwhole htotal with
    ⟨written, s', hrun, hholds, hmetadata, hcount, hsamples⟩ | ⟨hroom, -⟩
  · refine ⟨s', ?_, ?_⟩
    · exact bind_of_ok hrun
    constructor
    case holds =>
      rw [columnsOf_append h.whole]
      exact hholds
    case whole => rw [List.length_append, Nat.add_mod, h.whole, hwhole, Nat.zero_mod]
    case metadata => exact hmetadata.trans h.metadata
    case short => exact h.short
    case samplesWritten =>
      have hfew : (audio.length + buffer.length) / info.channelCount.toNat ≤
          audio.length + buffer.length := Nat.div_le_self _ _
      have hbytes := Nat.mul_le_mul hfew (samplesPerByte_le info)
      rw [hsamples, h.samplesWritten, List.length_append, ← Nat.add_mul, ← hsum,
        Nat.mod_eq_of_lt (by omega)]
    case sampleCount => exact hcount
  · exact absurd hroom (by omega)

theorem Given.retag (h : Given info audio tag s) {buffer : Bytes} (hne : buffer ≠ [])
    (hshort : buffer.length ≤ maxReasonableMetadataSize) :
    ∃ s', (WriteOp.metadata buffer).run s = (.ok (), s') ∧ Given info audio buffer s' := by
  have hmode : s.handle.mode = .write ∨ s.handle.mode = .modify := .inl h.holds.mode
  have halloc : buffer.length ≤ maxAllocSize := hshort.trans (by decide)
  refine ⟨{ s with handle := { s.handle with metadata := buffer } }, ?_, ?_⟩
  · simp only [WriteOp.run, writeMetadata, bind_apply, get_apply, require_of hne,
      require_of hmode, require_of hshort, liftIo, zoom_apply, saMalloc, require_of halloc,
      update, modify_apply, pure_apply]
  · exact ⟨⟨h.holds.mode, h.holds.channelCount, h.holds.bitsPerSample, h.holds.io, h.holds.room,
      h.holds.buffered⟩, h.whole, rfl, hshort, h.samplesWritten, h.sampleCount⟩

/-- Every call that is accepted succeeds where the audio fits a chunk. -/
theorem Given.run {ops : List WriteOp}
    (h : Given info audio tag s) (hops : ∀ op ∈ ops, op.Accepted info.channelCount.toNat)
    (hsize : (audio ++ audioOf ops).length ≤ maxReasonableChunkSize) :
    ∃ s', runOps ops s = (.ok (), s') ∧ Given info (audio ++ audioOf ops) (tagOf ops tag) s' := by
  induction ops generalizing audio tag s with
  | nil => exact ⟨s, rfl, by rwa [audioOf, List.append_nil]⟩
  | cons op ops ih =>
    have hop := hops op (.head _)
    have hrest : ∀ op ∈ ops, op.Accepted info.channelCount.toNat := fun o ho => hops o (.tail _ ho)
    cases op with
    | audio buffer =>
      rw [audioOf, ← List.append_assoc] at hsize ⊢
      have hfits : audio.length + buffer.length ≤ maxReasonableChunkSize := by
        rw [List.length_append, List.length_append] at hsize
        omega
      obtain ⟨t, hrun, hgiven⟩ := h.write hop hfits
      obtain ⟨s', hmore, hend⟩ := ih hgiven hrest hsize
      exact ⟨s', (bind_of_ok hrun).trans hmore, hend⟩
    | metadata buffer =>
      obtain ⟨t, hrun, hgiven⟩ := h.retag hop.1 hop.2
      obtain ⟨s', hmore, hend⟩ := ih hgiven hrest hsize
      exact ⟨s', (bind_of_ok hrun).trans hmore, hend⟩

theorem Given.finalize (hc : 0 < info.channelCount.toNat) (h : Given info audio tag s)
    (hsize : dataChunkHeaderSize + roundUp (groupSize info.channelCount.toNat) audio.length ≤
      maxReasonableChunkSize) :
    ∃ t, Dsf.finalize s = (.ok (), t) ∧ t.handle.mode = .write ∧
      t.io = ⟨layout info (finished (audioBytes info.channelCount.toNat
          (columnsOf info.channelCount.toNat audio)) tag
          (audio.length / info.channelCount.toNat * samplesPerByte info))
        (audioBytes info.channelCount.toNat (columnsOf info.channelCount.toNat audio) ++ tag),
        headSize + roundUp (groupSize info.channelCount.toNat) audio.length + tag.length⟩ := by
  have hlength := audioBytes_columnsOf_length hc h.whole
  have hshort := h.short
  have hmax : maxReasonableChunkSize + maxReasonableMetadataSize + headSize ≤
      ByteFile.offMax := by decide
  rcases finalize_outcome h.holds (h.metadata ▸ hshort) rfl with
    ⟨t, hrun, hmode, hio, -⟩ | ⟨hroom, -⟩
  · rw [h.metadata, h.sampleCount, h.samplesWritten, hlength] at hio
    exact ⟨t, hrun, hmode, hio⟩
  · rw [h.metadata, hlength] at hroom
    omega

theorem samples_fill (hc : 0 < info.channelCount.toNat)
    (hwhole : audio.length % info.channelCount.toNat = 0)
    (hsize : roundUp (groupSize info.channelCount.toNat) audio.length ≤ maxReasonableChunkSize) :
    info.bitsPerSample ≠ 1 ∨
      (audioBytes info.channelCount.toNat (columnsOf info.channelCount.toNat audio)).length =
        calculateAudioDataSize info.channelCount
          (audio.length / info.channelCount.toNat * samplesPerByte info) info.bitsPerSample := by
  by_cases hbits : info.bitsPerSample = 1
  · right
    have hlength := audioBytes_columnsOf_length hc hwhole
    have hblocks := audioBytes_length info.channelCount.toNat
      (columnsOf info.channelCount.toNat audio)
    rw [columnsOf_length] at hblocks
    rw [samplesPerByte, if_pos hbits, hbits]
    exact (calculateAudioDataSize_of_bytes hc hblocks.symm (hlength.trans_le hsize)).symm
  · exact .inl hbits

theorem dsfClose_of_end {t : OpenHandle} {content : Bytes} {pos : Nat}
    (hmode : t.handle.mode = .write) (hio : t.io = ⟨content, pos⟩) (hpos : pos = content.length) :
    dsfClose t = content := by
  rw [dsfClose, ioClose, if_pos (.inl hmode), hio]
  exact (ByteFile.truncate_eq_iff _).2 hpos

theorem channelCount_pos (hinfo : info.Writable) : 0 < info.channelCount.toNat := by
  have hvalid := hinfo.channelCount
  simp only [isValidChannelCount, Bool.and_eq_true, decide_eq_true_eq, UInt32.le_iff_toNat_le]
    at hvalid
  exact Nat.lt_of_lt_of_le Nat.one_pos hvalid.1

theorem samples_lt (hc : 0 < info.channelCount.toNat)
    (hsize : dataChunkHeaderSize + roundUp (groupSize info.channelCount.toNat) audio.length ≤
      maxReasonableChunkSize) :
    audio.length / info.channelCount.toNat * samplesPerByte info < 2 ^ 64 := by
  have hround := le_roundUp (groupSize_pos hc) audio.length
  have hfew : audio.length / info.channelCount.toNat ≤ audio.length := Nat.div_le_self _ _
  have hbytes := Nat.mul_le_mul hfew (samplesPerByte_le info)
  have hmax : maxReasonableChunkSize = 10737418240 := rfl
  omega

/-- What was given to a file is in it when it is opened again. -/
theorem Given.reopen (hinfo : info.Writable) (h : Given info audio tag s)
    (hsize : dataChunkHeaderSize + roundUp (groupSize info.channelCount.toNat) audio.length ≤
      maxReasonableChunkSize) :
    ∃ t u, Dsf.finalize s = (.ok (), t) ∧ dsfOpen (dsfClose t) = .ok u ∧
      ReadsBack info (audio.length / info.channelCount.toNat * samplesPerByte info)
        (paddedAudio info.channelCount.toNat audio) tag u := by
  have hc := channelCount_pos hinfo
  have hlength := audioBytes_columnsOf_length hc h.whole
  have hsamples := samples_fill hc h.whole (by omega)
  have hsamples64 := samples_lt hc hsize
  have hgroups := dvd_roundUp (groupSize info.channelCount.toNat) audio.length
  obtain ⟨t, hfinal, hmode, hio⟩ := h.finalize hc hsize
  rw [← hlength] at hsize hio hgroups
  have hend : headSize + (audioBytes info.channelCount.toNat
      (columnsOf info.channelCount.toNat audio)).length + tag.length =
      (layout info (finished (audioBytes info.channelCount.toNat
          (columnsOf info.channelCount.toNat audio)) tag
          (audio.length / info.channelCount.toNat * samplesPerByte info))
        (audioBytes info.channelCount.toNat (columnsOf info.channelCount.toNat audio) ++
          tag)).length := by
    rw [layout_length, List.length_append, Nat.add_assoc]
  obtain ⟨u, hopen, hback⟩ :=
    finished_readsBack hinfo hsize hgroups h.short hsamples64 hsamples
  rw [playback_audioBytes hc h.whole] at hback
  refine ⟨t, u, hfinal, ?_, hback⟩
  rw [dsfClose_of_end hmode hio hend, hopen]

end Write

section Made

variable {sampleRate channelType channelCount bitsPerSample : UInt32} {s : OpenHandle}
  {ops : List WriteOp}

/-- Whatever is given to a new file in accepted calls, the file has been given. -/
theorem given_of_create
    (hcreate : dsfCreate sampleRate channelType channelCount bitsPerSample = .ok s)
    (hops : ∀ op ∈ ops, op.Accepted channelCount.toNat)
    (hsize : dataChunkHeaderSize + roundUp (groupSize channelCount.toNat) (audioOf ops).length ≤
      maxReasonableChunkSize) :
    ∃ t, runOps ops s = (.ok (), t) ∧
      Given (createInfo sampleRate channelType channelCount bitsPerSample) (audioOf ops)
        (tagOf ops []) t := by
  have hinfo := writable_of_create hcreate
  obtain rfl := Except.ok.inj ((dsfCreate_eq hinfo).symm.trans hcreate)
  have hc : 0 < channelCount.toNat := channelCount_pos hinfo
  have hround := le_roundUp (groupSize_pos hc) (audioOf ops).length
  have hnone : columnsOf channelCount.toNat [] = [] := by simp [columnsOf]
  have hstart : Given (createInfo sampleRate channelType channelCount bitsPerSample) [] []
      (created (createInfo sampleRate channelType channelCount bitsPerSample)) := by
    refine ⟨?_, Nat.zero_mod _, rfl, Nat.zero_le _, by simp [created, reset], rfl⟩
    have hholds := created_holds
      (createInfo sampleRate channelType channelCount bitsPerSample)
    rwa [← hnone] at hholds
  obtain ⟨t, hrun, hgiven⟩ := hstart.run hops (by rw [List.nil_append]; omega)
  exact ⟨t, hrun, hgiven⟩

/-- Audio that is written in any pieces is read back in any pieces, padded with zero bytes to
whole block groups, and with the metadata given last. -/
theorem audio_round_trip
    (hcreate : dsfCreate sampleRate channelType channelCount bitsPerSample = .ok s)
    (hops : ∀ op ∈ ops, op.Accepted channelCount.toNat)
    (hsize : dataChunkHeaderSize + roundUp (groupSize channelCount.toNat) (audioOf ops).length ≤
      maxReasonableChunkSize) :
    ∃ t u, (runOps ops >>= fun _ => finalize) s = (.ok (), t) ∧ dsfOpen (dsfClose t) = .ok u ∧
      ReadsBack (createInfo sampleRate channelType channelCount bitsPerSample)
        ((audioOf ops).length / channelCount.toNat * if bitsPerSample = 1 then 8 else 1)
        (paddedAudio channelCount.toNat (audioOf ops)) (tagOf ops []) u := by
  obtain ⟨t, hrun, hgiven⟩ := given_of_create hcreate hops hsize
  obtain ⟨u, v, hfinal, hopen, hback⟩ := hgiven.reopen (writable_of_create hcreate) hsize
  exact ⟨u, v, (bind_of_ok hrun).trans hfinal, hopen, hback⟩

end Made

theorem createInfo_stereo_writable : (createInfo 2822400 2 2 1).Writable :=
  ⟨rfl, rfl, rfl, rfl, rfl, rfl, rfl⟩

/-- Three columns in two calls, with metadata in between. -/
theorem audio_round_trip_stereo : ∃ t u,
    (runOps [.audio [1, 2], .metadata [9], .audio [3, 4, 5, 6]] >>= fun _ => finalize)
      (created (createInfo 2822400 2 2 1)) = (.ok (), t) ∧ dsfOpen (dsfClose t) = .ok u ∧
      ReadsBack (createInfo 2822400 2 2 1) (3 * 8) (paddedAudio 2 [1, 2, 3, 4, 5, 6]) [9] u :=
  audio_round_trip (dsfCreate_eq createInfo_stereo_writable)
    (by simp [WriteOp.Accepted, maxReasonableMetadataSize]) (by decide)

end DsdNexus.Dsf
